import Breadboard.Sketch.Basic
import Breadboard.ValueType.Widening
/-!
# Checking a connection

Whether an edge may be added to a sketch. Both ends must name nodes of the graph; an
execution edge needs nothing more. A data edge also needs its source handle to name an
output port of the source node and its target handle an input port of the target node,
and the source port's type must be able to feed the target port's type.

The checks run in this order, and the first failure is the answer: source node, target
node, kind, source port, target port, types.
-/

namespace Breadboard

/-- Why an edge cannot be added. -/
inductive LinkError where
  | nodeNotFound (id : String)
  | portNotFound (nodeId portId : String) (isOutput : Bool)
  | typeMismatch (source target : ValueType)
  deriving DecidableEq, Repr

namespace LinkError

/-- The name of the error's kind. -/
def kindName : LinkError → String
  | .nodeNotFound _ => "NodeNotFound"
  | .portNotFound .. => "PortNotFound"
  | .typeMismatch .. => "TypeMismatch"

/-- The text of the error. -/
def message : LinkError → String
  | .nodeNotFound id => "Node '" ++ id ++ "' does not exist in the sketch"
  | .portNotFound nodeId portId isOutput =>
    "Node '" ++ nodeId ++ "' has no " ++ (if isOutput then "output" else "input") ++ " port '" ++
      portId ++ "'"
  | .typeMismatch s t => "Type mismatch: " ++ s.spelling ++ " cannot connect to " ++ t.spelling

end LinkError

/-- The node with the given id, or the error that it is missing. -/
def Graph.require (g : Graph) (id : String) : Except LinkError Node :=
  match g.find? id with
  | some n => .ok n
  | none => .error (.nodeNotFound id)

/-- Checks whether an edge may be added to the graph, and gives its kind if so. -/
def Graph.checkEdge (g : Graph) (e : Edge) : Except LinkError EdgeKind := do
  let source ← g.require e.source
  let target ← g.require e.target
  if e.kind = .execution then return .execution
  let some sp := source.output? e.sourceHandle
    | throw (.portNotFound source.id e.sourceHandle true)
  let some tp := target.input? e.targetHandle
    | throw (.portNotFound target.id e.targetHandle false)
  if ValueType.isCompatible sp.type tp.type then pure .data
  else throw (.typeMismatch sp.type tp.type)

end Breadboard
