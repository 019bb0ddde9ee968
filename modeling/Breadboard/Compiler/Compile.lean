import Breadboard.Compiler.Options
import Breadboard.Compiler.Procedure
import Breadboard.Compiler.Expression
import Breadboard.Sketch.Palette
/-!
# Compiling a sketch graph

Compiling never fails. Named variables are declared first, in node id order: a global
variable's declaration goes to the globals, and reading a variable's output means reading
its name. Then `setup` and `loop` get their statements: each call node of the procedure
makes its call expression followed by `;`, and each local named variable its declaration.
A call whose result is read through a data edge has its expression bound to those outputs,
so later readers reuse it instead of calling again. Last, every call node outside both
procedures that feeds a data edge has its expression computed and bound, in node id order.

The sketch text is the header comment, the include directives, the globals, and the
`setup` and `loop` functions, each section followed by an empty line; an empty procedure
body holds its placeholder comment.
-/

namespace Breadboard.Compiler

/-- The result of compiling a graph. -/
structure Compiled where
  includes : List String
  globals : List String
  setup : List String
  loop : List String
  /-- The expression bound to each output of a node. -/
  expressions : List ((String × String) × String)
  options : Options
  deriving Repr

/-- The expression that reading output `portId` of node `nodeId` resolves to, if one was
computed. -/
def Compiled.expression? (c : Compiled) (nodeId portId : String) : Option String :=
  c.expressions.lookup (nodeId, portId)

/-- The statement of a call node reached by a procedure, binding its expression to each
output with a value that a data edge reads. -/
def callStatement (g : Graph) (fuel : Nat) (n : Node) (c : Call) (b : Built) : String × Built :=
  let (expr, b) := callText g fuel n c [n.id] b
  let b := n.outputs.foldl (fun b p =>
    if p.type != .void && g.isRead n.id p.id then b.bind n.id p.id expr else b) b
  (expr ++ ";", b)

/-- Appends the statement of the node with id `id`, if it makes one: a call its call
statement, a local named variable its declaration. -/
def statementStep (g : Graph) (fuel : Nat) (acc : List String × Built) (id : String) :
    List String × Built :=
  let (out, b) := acc
  match g.find? id with
  | some n =>
    match n.kind with
    | .call c =>
      let (s, b) := callStatement g fuel n c b
      (out ++ [s], b)
    | .variable v =>
      if !v.isGlobal && !v.name.isEmpty then (out ++ [v.declaration], b) else (out, b)
    | _ => (out, b)
  | none => (out, b)

/-- The statements of the nodes with the given ids, in order. -/
def statements (g : Graph) (fuel : Nat) (ids : List String) (b : Built) : List String × Built :=
  ids.foldl (statementStep g fuel) ([], b)

/-- The nodes in id order, nodes with equal ids in graph order. -/
def byId (g : Graph) : List Node :=
  g.nodes.mergeSort fun a b => decide (a.id ≤ b.id)

/-- Declares a named variable: a global one's declaration is appended to the globals, and its
output is bound to its name. -/
def declareStep (acc : List String × Built) (n : Node) : List String × Built :=
  let (globals, b) := acc
  match n.kind with
  | .variable v =>
    if v.name.isEmpty then (globals, b)
    else
      let globals := if v.isGlobal then globals ++ [v.declaration] else globals
      let port := (n.outputs.head?.map (·.id)).getD Port.variableOutputId
      (globals, b.bind n.id port v.name)
  | _ => (globals, b)

/-- The global declarations of the named variables, and their outputs bound to their
names. -/
def declareVariables (g : Graph) : List String × Built :=
  (byId g).foldl declareStep ([], {})

/-- Binds the expression of a call node that no procedure covers and that feeds a data edge
to its first output. -/
def orphanStep (g : Graph) (fuel : Nat) (setupIds loopIds : List String) (b : Built) (n : Node) :
    Built :=
  match n.kind with
  | .call c =>
    if setupIds.contains n.id || loopIds.contains n.id || !g.feedsData n.id then b
    else
      let (expr, b) := callText g fuel n c [n.id] b
      b.bind n.id ((n.outputs.head?.map (·.id)).getD Port.callOutputId) expr
  | _ => b

/-- Compiles a graph. -/
def compile (g : Graph) (o : Options := {}) : Compiled :=
  let fuel := g.nodes.length + 1
  let (globals, b) := declareVariables g
  let setupIds := ((g.entryPoint .setup "setup").map g.procedure).getD []
  let loopIds := ((g.entryPoint .loop "loop").map g.procedure).getD []
  let (setup, b) := statements g fuel setupIds b
  let (loop, b) := statements g fuel loopIds b
  let b := (byId g).foldl (orphanStep g fuel setupIds loopIds) b
  { includes := b.includes, globals, setup, loop, expressions := b.bound, options := o }

/-- The body lines of a procedure: its statements indented, or the placeholder. -/
def Compiled.body (c : Compiled) (stmts : List String) (placeholder : String) : List String :=
  if stmts.isEmpty then [c.options.indent ++ placeholder] else stmts.map (c.options.indent ++ ·)

/-- The lines of the sketch text. -/
def Compiled.lines (c : Compiled) : List String :=
  (if c.options.headerComment.isEmpty then []
    else c.options.headerComment.map ("// " ++ ·) ++ [""]) ++
  (if c.includes.isEmpty then [] else c.includes ++ [""]) ++
  (if c.globals.isEmpty then [] else "// Global variables" :: c.globals ++ [""]) ++
  ["void setup() \x7b"] ++ c.body c.setup c.options.setupPlaceholder ++ ["\x7d", ""] ++
  ["void loop() \x7b"] ++ c.body c.loop c.options.loopPlaceholder ++ ["\x7d"]

/-- The sketch text: its lines joined by newlines, with no newline at the end. -/
def Compiled.source (c : Compiled) : String :=
  "\n".intercalate c.lines

end Breadboard.Compiler
