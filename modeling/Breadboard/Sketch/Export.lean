import Breadboard.Sketch.Basic
import Breadboard.Json.Shape
/-!
# Editor exports

The graph editor saves a sketch as JSON: `nodes`, each an `id` and a `data` record, and
`edges`, each a `source`, `target` and their optional handles. Field names may be given in
snake case or camel case (`node_type` or `nodeType`), but not both at once. Reading an
export checks its shape; turning it into a sketch graph then checks what its nodes say:

* `node_type` must be `setup`, `loop`, `function` or `variable`;
* a function node must name its function;
* every type name must spell a value type, after trimming (a variable's type defaults to
  `int`, a port's to `any`).

The first failing node decides the error; within a node its own fields are checked before
its input ports, and those before its output ports. An export that lacks an entry point
gets the missing `setup` and `loop` nodes appended.

Literals are kept as text: a string gives its contents, `null` gives none, and any other
value gives its compact JSON text, as the JSON text layer `J` writes it.
-/

namespace Breadboard.Export

open Json

/-- A port as exported. -/
structure PortEntry where
  id : String
  label : String
  type : String
  value : Option Value
  connected : Bool

/-- A port being read: the fields seen so far. -/
structure PortDraft where
  id : Option String := none
  label : Option String := none
  type : Option String := none
  value : Option (Option Value) := none
  connected : Option Bool := none

/-- The fields of an exported port. -/
def portFields : Fields PortDraft :=
  .cons ["id"] true (·.id) (fun d v => { d with id := some v }) .string <|
  .cons ["label"] false (·.label) (fun d v => { d with label := some v }) .string <|
  .cons ["type"] false (·.type) (fun d v => { d with type := some v }) .string <|
  .cons ["value"] false (·.value) (fun d v => { d with value := some v }) (.option .value) <|
  .cons ["connected"] false (·.connected) (fun d v => { d with connected := some v }) .bool .nil

/-- The shape of an exported port. -/
def portShape : Shape PortEntry :=
  .record "UiPort" portFields {}
    fun d => ⟨d.id.getD "", d.label.getD "", d.type.getD "any", d.value.getD none,
      d.connected.getD false⟩

/-- The data of an exported node. -/
structure NodeData where
  nodeType : String
  functionName : Option String
  library : Option String
  inputs : List PortEntry
  outputs : List PortEntry
  includeStatement : Option String
  variableName : Option String
  variableType : Option String
  initialValue : Option Value
  isGlobal : Option Bool

/-- Node data being read. -/
structure NodeDataDraft where
  nodeType : Option String := none
  functionName : Option (Option String) := none
  library : Option (Option String) := none
  inputs : Option (List PortEntry) := none
  outputs : Option (List PortEntry) := none
  includeStatement : Option (Option String) := none
  variableName : Option (Option String) := none
  variableType : Option (Option String) := none
  initialValue : Option (Option Value) := none
  isGlobal : Option (Option Bool) := none

/-- The fields of exported node data. -/
def nodeDataFields : Fields NodeDataDraft :=
  .cons ["node_type", "nodeType"] true (·.nodeType)
    (fun d v => { d with nodeType := some v }) .string <|
  .cons ["function_name", "functionName"] false (·.functionName)
    (fun d v => { d with functionName := some v }) (.option .string) <|
  .cons ["library"] false (·.library)
    (fun d v => { d with library := some v }) (.option .string) <|
  .cons ["inputs"] false (·.inputs)
    (fun d v => { d with inputs := some v }) (.list portShape) <|
  .cons ["outputs"] false (·.outputs)
    (fun d v => { d with outputs := some v }) (.list portShape) <|
  .cons ["include_statement", "includeStatement"] false (·.includeStatement)
    (fun d v => { d with includeStatement := some v }) (.option .string) <|
  .cons ["variable_name", "variableName"] false (·.variableName)
    (fun d v => { d with variableName := some v }) (.option .string) <|
  .cons ["variable_type", "variableType"] false (·.variableType)
    (fun d v => { d with variableType := some v }) (.option .string) <|
  .cons ["initial_value", "initialValue"] false (·.initialValue)
    (fun d v => { d with initialValue := some v }) (.option .value) <|
  .cons ["is_global", "isGlobal"] false (·.isGlobal)
    (fun d v => { d with isGlobal := some v }) (.option .bool) .nil

/-- The shape of exported node data. -/
def nodeDataShape : Shape NodeData :=
  .record "UiNodeData" nodeDataFields {}
    fun d => ⟨d.nodeType.getD "", d.functionName.getD none, d.library.getD none,
      d.inputs.getD [], d.outputs.getD [], d.includeStatement.getD none,
      d.variableName.getD none, d.variableType.getD none, d.initialValue.getD none,
      d.isGlobal.getD none⟩

/-- An exported node. -/
structure NodeEntry where
  id : String
  data : NodeData

/-- An exported node being read. -/
structure NodeDraft where
  id : Option String := none
  data : Option NodeData := none

/-- The fields of an exported node. -/
def nodeFields : Fields NodeDraft :=
  .cons ["id"] true (·.id) (fun d v => { d with id := some v }) .string <|
  .cons ["data"] true (·.data) (fun d v => { d with data := some v }) nodeDataShape .nil

/-- The shape of an exported node. -/
def nodeShape : Shape NodeEntry :=
  .record "UiNode" nodeFields {}
    fun d => ⟨d.id.getD "", d.data.getD ⟨"", none, none, [], [], none, none, none, none, none⟩⟩

/-- An exported edge. -/
structure EdgeEntry where
  source : String
  sourceHandle : Option String
  target : String
  targetHandle : Option String

/-- An exported edge being read. -/
structure EdgeDraft where
  source : Option String := none
  sourceHandle : Option (Option String) := none
  target : Option String := none
  targetHandle : Option (Option String) := none

/-- The fields of an exported edge. -/
def edgeFields : Fields EdgeDraft :=
  .cons ["source"] true (·.source) (fun d v => { d with source := some v }) .string <|
  .cons ["source_handle", "sourceHandle"] false (·.sourceHandle)
    (fun d v => { d with sourceHandle := some v }) (.option .string) <|
  .cons ["target"] true (·.target) (fun d v => { d with target := some v }) .string <|
  .cons ["target_handle", "targetHandle"] false (·.targetHandle)
    (fun d v => { d with targetHandle := some v }) (.option .string) .nil

/-- The shape of an exported edge. -/
def edgeShape : Shape EdgeEntry :=
  .record "UiEdge" edgeFields {}
    fun d => ⟨d.source.getD "", d.sourceHandle.getD none, d.target.getD "",
      d.targetHandle.getD none⟩

/-- An editor export. -/
structure SketchEntry where
  nodes : List NodeEntry
  edges : List EdgeEntry

/-- An editor export being read. -/
structure SketchDraft where
  nodes : Option (List NodeEntry) := none
  edges : Option (List EdgeEntry) := none

/-- The fields of an editor export. -/
def sketchFields : Fields SketchDraft :=
  .cons ["nodes"] true (·.nodes) (fun d v => { d with nodes := some v }) (.list nodeShape) <|
  .cons ["edges"] false (·.edges) (fun d v => { d with edges := some v }) (.list edgeShape) .nil

/-- The shape of an editor export. -/
def sketchShape : Shape SketchEntry :=
  .record "UiSketch" sketchFields {} fun d => ⟨d.nodes.getD [], d.edges.getD []⟩

/-- Reads an editor export from JSON text. -/
def SketchEntry.ofText (J : JsonText) (text : String) : Except J.Error SketchEntry :=
  J.decode sketchShape text

/-! ### From an export to a sketch graph -/

/-- Why an export does not describe a sketch. -/
inductive ConversionError where
  /-- Data the export should hold is missing. -/
  | invalid (detail : String)
  | unknownNodeType (nodeId nodeType : String)
  | unknownValueType (nodeId typeName : String)
  deriving DecidableEq, Repr

namespace ConversionError

/-- The name of the error's kind. -/
def kindName : ConversionError → String
  | .invalid _ => "ValidationError"
  | .unknownNodeType .. => "UnknownNodeType"
  | .unknownValueType .. => "UnknownValueType"

/-- The text of the error. -/
def message : ConversionError → String
  | .invalid detail => "Invalid custom data: " ++ detail
  | .unknownNodeType nodeId nodeType =>
    "Node '" ++ nodeId ++ "' has an unknown node type '" ++ nodeType ++ "'"
  | .unknownValueType nodeId typeName =>
    "Node '" ++ nodeId ++ "' declares an unknown value type '" ++ typeName ++ "'"

end ConversionError

/-- The literal text of an exported value: a string's contents, none for `null`, and
compact JSON text for anything else. -/
def literalText (J : JsonText) : Value → Option String
  | .null => none
  | .str s => some s
  | v => some (J.compact v)

/-- The value type a node declares by name. -/
def typeOf (nodeId name : String) : Except ConversionError ValueType :=
  match ValueType.ofString? name with
  | .ok t => .ok t
  | .error _ => .error (.unknownValueType nodeId name)

/-- The ports of a node. -/
def ports (J : JsonText) (nodeId : String) (entries : List PortEntry) :
    Except ConversionError (List Port) :=
  entries.mapM fun p => do
    let type ← typeOf nodeId p.type
    pure
      { id := p.id, label := p.label, type, literal := p.value.bind (literalText J),
        connected := p.connected }

/-- What an exported node is, from its data. -/
def NodeEntry.kind (J : JsonText) (n : NodeEntry) : Except ConversionError NodeKind :=
  let d := n.data
  match d.nodeType with
  | "setup" => .ok .setup
  | "loop" => .ok .loop
  | "function" =>
    match d.functionName with
    | some callName =>
      let call : Call :=
        { callName, library := d.library.getD "",
          directive := d.includeStatement.filter (!Text.isBlankText ·) }
      .ok (.call call)
    | none => .error (.invalid ("Function node '" ++ n.id ++ "' has no function name"))
  | "variable" => do
    let type ← typeOf n.id (d.variableType.getD "int")
    let v : Variable :=
      { name := d.variableName.getD "", type,
        initial := d.initialValue.bind (literalText J), isGlobal := d.isGlobal.getD true }
    pure (.variable v)
  | other => .error (.unknownNodeType n.id other)

/-- The sketch node of an exported node. -/
def NodeEntry.toNode (J : JsonText) (n : NodeEntry) : Except ConversionError Node := do
  let kind ← n.kind J
  let inputs ← ports J n.id n.data.inputs
  let outputs ← ports J n.id n.data.outputs
  pure { id := n.id, inputs, outputs, kind }

/-- The sketch graph of an export: its nodes, then the entry points it lacks, and its edges
with missing handles read as empty. -/
def SketchEntry.toGraph (J : JsonText) (s : SketchEntry) : Except ConversionError Graph := do
  let nodes ← s.nodes.mapM (NodeEntry.toNode J)
  let hasSetup := nodes.any fun n => n.kind == .setup
  let hasLoop := nodes.any fun n => n.kind == .loop
  let nodes := nodes ++ (if hasSetup then [] else [Node.setupEntry]) ++
    (if hasLoop then [] else [Node.loopEntry])
  let edges := s.edges.map fun e =>
    (⟨e.source, e.sourceHandle.getD "", e.target, e.targetHandle.getD ""⟩ : Edge)
  pure { nodes, edges }

end Breadboard.Export
