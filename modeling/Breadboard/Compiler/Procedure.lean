import Breadboard.Compiler.Index
/-!
# The statements of a procedure

Which nodes make the statements of `setup` or `loop`, and in which order.

Discovery walks the execution edges from the entry point depth first, taking a node's
successors in edge order: a node is visited once, so cycles end, and the walk goes on only
through calls and variables — an edge into an entry point or into a missing node ends its
branch.

The discovered nodes are then ordered so that each comes after the discovered nodes that
feed its data inputs; otherwise they keep discovery order, and a data cycle is cut where it
closes.
-/

namespace Breadboard

/-- Whether a node makes statements: a call or a variable. -/
def Node.isStep (n : Node) : Bool :=
  match n.kind with
  | .call _ | .variable _ => true
  | _ => false

namespace Graph

/-- Depth-first discovery with an explicit stack (top first) and the visited ids; `found`
holds the discovered ids, last first. Every round pops an id, and ids are pushed only when
a node is visited for the first time, so `fuel` of twice the number of edges suffices. -/
def discoverFrom (g : Graph) : Nat → List String → List String → List String → List String
  | 0, _, _, found => found.reverse
  | _ + 1, [], _, found => found.reverse
  | fuel + 1, id :: stack, visited, found =>
    if visited.contains id then g.discoverFrom fuel stack visited found
    else
      match g.find? id with
      | some n =>
        if n.isStep then
          g.discoverFrom fuel (g.successors id ++ stack) (id :: visited) (id :: found)
        else g.discoverFrom fuel stack (id :: visited) found
      | none => g.discoverFrom fuel stack (id :: visited) found

/-- The calls and variables reachable from an entry point through calls and variables, in
depth-first order. -/
def discover (g : Graph) (entry : String) : List String :=
  g.discoverFrom (2 * g.edges.length + 1) (g.successors entry) [] []

/-- Places `id` after the members that feed it: the placed ids and the order so far (last
first). Each nested placing places a new member, so `fuel` of one more than the number of
members suffices. -/
def place (g : Graph) (members : List String) :
    Nat → String → List String × List String → List String × List String
  | 0, _, st => st
  | fuel + 1, id, (placed, ordered) =>
    if placed.contains id then (placed, ordered)
    else
      let (placed', ordered') := (g.producers id).foldl
        (fun st src => if members.contains src then g.place members fuel src st else st)
        (id :: placed, ordered)
      (placed', id :: ordered')

/-- Orders ids so that each comes after the ids of the list that feed its data inputs,
keeping the given order otherwise. -/
def dependencyOrder (g : Graph) (ids : List String) : List String :=
  (ids.foldl (fun st id => g.place ids (ids.length + 1) id st) ([], [])).2.reverse

/-- The ids of the nodes that make the statements of the procedure starting at `entry`, in
the order of their statements. -/
def procedure (g : Graph) (entry : String) : List String :=
  g.dependencyOrder (g.discover entry)

/-- The entry point of a kind: the one with the conventional id if there is one, else the
first of that kind. -/
def entryPoint (g : Graph) (kind : NodeKind) (conventional : String) : Option String :=
  let entries := g.nodes.filter (·.kind == kind)
  match entries.find? (·.id == conventional) with
  | some n => some n.id
  | none => entries.head?.map (·.id)

end Graph

end Breadboard
