import Breadboard.Sketch.Basic
import Breadboard.Library.Basic
/-!
# Nodes from the palette

How the editor's palette makes nodes. A function of a library becomes a call node with
one input port per parameter (`input-0`, `input-1`, …, labelled with the parameter's name
and carrying its default value as literal) and, unless it returns nothing, one output port
`output` labelled `result`. A variable becomes a node with one output port `value`
labelled with its name.
-/

namespace Breadboard

/-- The id of the input port for the parameter at `index`. -/
def Port.inputId (index : Nat) : String :=
  "input-" ++ toString index

/-- The id of a call node's output port. -/
def Port.callOutputId : String := "output"

/-- The id of a variable node's output port. -/
def Port.variableOutputId : String := "value"

namespace Node

/-- The call node for function `f` of library `l`. -/
def ofFunction (id : String) (f : FunctionDecl) (l : Library) : Node :=
  { id,
    inputs := f.parameters.zipIdx.map fun (p, i) =>
      { id := Port.inputId i, label := p.name, type := p.type, literal := p.defaultValue },
    outputs := if f.returnType = .void then []
      else [{ id := Port.callOutputId, label := "result", type := f.returnType }],
    kind := .call { callName := f.qualifiedName, library := l.name, directive := l.directive } }

/-- The node of a variable. -/
def ofVariable (id name : String) (type : ValueType) (initial : Option String)
    (isGlobal : Bool) : Node :=
  { id,
    outputs := [{ id := Port.variableOutputId, label := name, type }],
    kind := .variable { name, type, initial, isGlobal } }

end Node

end Breadboard
