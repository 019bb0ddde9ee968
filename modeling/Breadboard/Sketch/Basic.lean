import Breadboard.ValueType.Basic
/-!
# Sketch graphs

A sketch is a graph of nodes joined by edges. A node is an entry point (`setup` or
`loop`), a call of a library function, or a variable; it has input and output ports,
each with a value type and possibly a literal typed into it. An edge joins an output
handle of one node to an input handle of another: from `exec-out` to `exec-in` it passes
control (an execution edge), otherwise it carries a value (a data edge).

Node ids are meant to be distinct, but a graph may repeat them; a lookup by id finds the
first node carrying it.
-/

namespace Breadboard

/-- The handle an execution edge leaves from. -/
def execOut : String := "exec-out"

/-- The handle an execution edge arrives at. -/
def execIn : String := "exec-in"

/-- A port of a node. -/
structure Port where
  id : String
  label : String
  type : ValueType
  literal : Option String := none
  connected : Bool := false
  deriving DecidableEq, Repr, Inhabited

/-- The literal of a port, when it is set and not empty. -/
def Port.literalText? (p : Port) : Option String :=
  match p.literal with
  | some l => if l.isEmpty then none else some l
  | none => none

/-- A call of a library function. -/
structure Call where
  /-- The name written at the call site, such as `Serial.print`. -/
  callName : String
  /-- The library the function comes from. -/
  library : String
  /-- The include directive the call needs. -/
  directive : Option String
  deriving DecidableEq, Repr, Inhabited

/-- A variable of the sketch. -/
structure Variable where
  name : String
  type : ValueType
  initial : Option String
  isGlobal : Bool
  deriving DecidableEq, Repr, Inhabited

/-- The declaration of a variable: `type name = initial;`, or `type name;` without an
initial value (an empty one counts as none). -/
def Variable.declaration (v : Variable) : String :=
  match v.initial with
  | some i =>
    if i.isEmpty then v.type.spelling ++ " " ++ v.name ++ ";"
    else v.type.spelling ++ " " ++ v.name ++ " = " ++ i ++ ";"
  | none => v.type.spelling ++ " " ++ v.name ++ ";"

/-- What a node is. -/
inductive NodeKind where
  | setup
  | loop
  | call (c : Call)
  | variable (v : Variable)
  deriving DecidableEq, Repr, Inhabited

/-- A node of a sketch graph. -/
structure Node where
  id : String
  inputs : List Port := []
  outputs : List Port := []
  kind : NodeKind
  deriving DecidableEq, Repr, Inhabited

namespace Node

/-- The first input port with the given id. -/
def input? (n : Node) (portId : String) : Option Port :=
  n.inputs.find? (·.id == portId)

/-- The first output port with the given id. -/
def output? (n : Node) (portId : String) : Option Port :=
  n.outputs.find? (·.id == portId)

/-- Whether the node is an entry point. -/
def isEntryPoint (n : Node) : Bool :=
  match n.kind with
  | .setup | .loop => true
  | _ => false

/-- The entry point that starts the sketch, id `setup`. -/
def setupEntry : Node := { id := "setup", kind := .setup }

/-- The entry point that repeats, id `loop`. -/
def loopEntry : Node := { id := "loop", kind := .loop }

end Node

/-- Whether an edge passes control or carries a value. -/
inductive EdgeKind where
  | execution
  | data
  deriving DecidableEq, Repr

/-- An edge from an output handle of one node to an input handle of another. -/
structure Edge where
  source : String
  sourceHandle : String
  target : String
  targetHandle : String
  deriving DecidableEq, Repr, Inhabited

namespace Edge

/-- An edge passes control exactly when it runs from `exec-out` to `exec-in`. -/
def kind (e : Edge) : EdgeKind :=
  if e.sourceHandle = execOut ∧ e.targetHandle = execIn then .execution else .data

/-- An execution edge from one node to another. -/
def exec (source target : String) : Edge :=
  ⟨source, execOut, target, execIn⟩

end Edge

/-- A sketch graph. -/
structure Graph where
  nodes : List Node := []
  edges : List Edge := []
  deriving Repr, Inhabited

namespace Graph

/-- The graph of a new sketch: the two entry points and nothing else. -/
def new : Graph := { nodes := [Node.setupEntry, Node.loopEntry] }

/-- The graph with a node added after the others. -/
def withNode (g : Graph) (n : Node) : Graph := { g with nodes := g.nodes ++ [n] }

/-- The graph with an edge added after the others. -/
def withEdge (g : Graph) (e : Edge) : Graph := { g with edges := g.edges ++ [e] }

/-- The first node with the given id. -/
def find? (g : Graph) (id : String) : Option Node :=
  g.nodes.find? (·.id == id)

/-- A node found by id is a node of the graph carrying that id. -/
theorem find?_spec {g : Graph} {id : String} {n : Node} (h : g.find? id = some n) :
    n ∈ g.nodes ∧ n.id = id :=
  ⟨List.mem_of_find?_eq_some h, by simpa using List.find?_some h⟩

end Graph

end Breadboard
