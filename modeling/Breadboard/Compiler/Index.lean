import Breadboard.Sketch.Basic
/-!
# What the compiler looks up in a graph

Lookups over the edges of a graph, each read off the edge list in order. An edge naming a
node that does not exist is kept, but its lookups never lead anywhere, so it behaves as if
it were absent.

* `feed?` — the first edge into an input handle of a node;
* `successors` — the targets of a node's execution edges;
* `producers` — the sources of the edges into a node's handles other than `exec-in`;
* `isRead` and `feedsData` — whether an output handle, or any output of a node, starts a
  data edge.
-/

namespace Breadboard.Graph

/-- The first edge into handle `portId` of node `nodeId`. -/
def feed? (g : Graph) (nodeId portId : String) : Option Edge :=
  g.edges.find? fun e => e.target == nodeId && e.targetHandle == portId

/-- The targets of the execution edges leaving a node, in edge order. -/
def successors (g : Graph) (id : String) : List String :=
  g.edges.filterMap fun e => if e.kind == .execution && e.source == id then some e.target else none

/-- The sources of the edges into a node's handles other than `exec-in`, in edge order. -/
def producers (g : Graph) (id : String) : List String :=
  g.edges.filterMap fun e =>
    if e.targetHandle != execIn && e.target == id then some e.source else none

/-- Whether output handle `portId` of node `nodeId` starts a data edge. -/
def isRead (g : Graph) (nodeId portId : String) : Bool :=
  g.edges.any fun e => e.kind == .data && e.source == nodeId && e.sourceHandle == portId

/-- Whether some output of a node starts a data edge. -/
def feedsData (g : Graph) (id : String) : Bool :=
  g.edges.any fun e => e.kind == .data && e.source == id

end Breadboard.Graph
