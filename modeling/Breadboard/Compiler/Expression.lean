import Breadboard.Compiler.Index
import Breadboard.Text.Blank
/-!
# Call expressions

The expression of a call node is its call name applied to one argument per input port.
An argument comes from the first edge into its port: an expression already computed for
the edge's source output, else the expression rebuilt from the source node (a named
variable reads as its name, a call is rebuilt inline); without either it is the port's
literal, or the zero value of its type.

Rebuilding follows data edges upstream from a root call; a call already being rebuilt on
the way from the root is not rebuilt again, which cuts data cycles. Building a call notes
the include directive it needs, trimmed, the first time it is seen.
-/

namespace Breadboard.Compiler

/-- What compiling has collected: include directives in first-seen order, and the
expression bound to each output of a node. -/
structure Built where
  includes : List String := []
  bound : List ((String × String) × String) := []
  deriving Repr, Inhabited

namespace Built

/-- The expression bound to an output of a node. -/
def lookup (b : Built) (nodeId portId : String) : Option String :=
  b.bound.lookup (nodeId, portId)

/-- Binds an expression to an output of a node, replacing an earlier one. -/
def bind (b : Built) (nodeId portId expr : String) : Built :=
  { b with bound := ((nodeId, portId), expr) :: b.bound.filter (·.1 != (nodeId, portId)) }

/-- Notes the include directive of a call, trimmed, unless it is blank or already noted. -/
def noteInclude (b : Built) (c : Call) : Built :=
  match c.directive with
  | some d =>
    let t := Text.trim d
    if t.isEmpty || b.includes.contains t then b else { b with includes := b.includes ++ [t] }
  | none => b

@[simp] theorem bound_noteInclude (b : Built) (c : Call) : (b.noteInclude c).bound = b.bound := by
  unfold noteInclude
  split
  · dsimp only
    split <;> rfl
  · rfl

@[simp] theorem lookup_noteInclude (b : Built) (c : Call) (nodeId portId : String) :
    (b.noteInclude c).lookup nodeId portId = b.lookup nodeId portId := by
  simp [lookup]

theorem lookup_bind_self (b : Built) (nodeId portId expr : String) :
    (b.bind nodeId portId expr).lookup nodeId portId = some expr := by
  simp [bind, lookup]

/-- Binding one output leaves the others as they were. -/
theorem lookup_bind_of_ne {b : Built} {nodeId portId expr nodeId' portId' : String}
    (h : (nodeId', portId') ≠ (nodeId, portId)) :
    (b.bind nodeId portId expr).lookup nodeId' portId' = b.lookup nodeId' portId' := by
  have hne : ((nodeId', portId') == (nodeId, portId)) = false := by simpa using h
  simp only [bind, lookup, List.lookup_cons, hne]
  generalize b.bound = l
  induction l with
  | nil => rfl
  | cons kv l ih =>
    obtain ⟨k, x⟩ := kv
    by_cases hk : k = (nodeId, portId)
    · subst hk
      simp [List.lookup_cons, hne, ih]
    · simp [hk, ih, List.lookup_cons]

end Built

/-- The argument of an input port without a usable connection: its literal, or the zero
value of its type. -/
def fallbackArgument (p : Port) : String :=
  p.literalText?.getD p.type.zeroValue

/-- The argument of input port `p` of call node `node`. `path` holds the calls being rebuilt
on the way from the root; `rebuild` rebuilds an upstream call that is not on it, or gives up. -/
def argument (g : Graph) (node : Node) (path : List String)
    (rebuild : Node → Call → Built → Option (String × Built)) (b : Built) (p : Port) :
    String × Built :=
  match g.feed? node.id p.id with
  | none => (fallbackArgument p, b)
  | some e =>
    match b.lookup e.source e.sourceHandle with
    | some x => (x, b)
    | none =>
      match g.find? e.source with
      | none => (fallbackArgument p, b)
      | some src =>
        match src.kind with
        | .variable v => (if v.name.isEmpty then fallbackArgument p else v.name, b)
        | .call sc =>
          if path.contains src.id then (fallbackArgument p, b)
          else (rebuild src sc b).getD (fallbackArgument p, b)
        | _ => (fallbackArgument p, b)

/-- The arguments of the ports `ps` of call node `node`, resolved in order. -/
def arguments (g : Graph) (node : Node) (path : List String)
    (rebuild : Node → Call → Built → Option (String × Built)) :
    Built → List Port → List String × Built
  | b, [] => ([], b)
  | b, p :: ps =>
    let r := argument g node path rebuild b p
    let rs := arguments g node path rebuild r.2 ps
    (r.1 :: rs.1, rs.2)

/-- The call expression of `node`: its call name applied to the arguments of its input ports,
resolved in order after noting the call's include directive. -/
def callWith (g : Graph) (node : Node) (c : Call) (path : List String)
    (rebuild : Node → Call → Built → Option (String × Built)) (b : Built) : String × Built :=
  let rs := arguments g node path rebuild (b.noteInclude c) node.inputs
  (c.callName ++ "(" ++ ", ".intercalate rs.1 ++ ")", rs.2)

/-- The expression of call node `node` with call `c`, where `path` holds the calls being
rebuilt on the way from the root; `fuel` bounds the depth of rebuilding, and one more than
the number of nodes suffices, since each level adds a new node to `path`. -/
def callText (g : Graph) : Nat → Node → Call → List String → Built → String × Built
  | 0, node, c, path, b => callWith g node c path (fun _ _ _ => none) b
  | k + 1, node, c, path, b =>
    callWith g node c path (fun src sc b => some (callText g k src sc (src.id :: path) b)) b

theorem callText_zero (g : Graph) (node : Node) (c : Call) (path : List String) (b : Built) :
    callText g 0 node c path b = callWith g node c path (fun _ _ _ => none) b := rfl

theorem callText_succ (g : Graph) (k : Nat) (node : Node) (c : Call) (path : List String)
    (b : Built) :
    callText g (k + 1) node c path b =
      callWith g node c path (fun src sc b => some (callText g k src sc (src.id :: path) b)) b :=
  rfl

end Breadboard.Compiler
