import Mathlib
import Breadboard.Proofs.Compiler.DanglingEdges

/-!
# Compiling with expression trees

Compiling builds every expression as text. This file runs the same phases but keeps each
expression as a tree: text taken as it stands (a literal, a zero value, a variable's name), or
a call node applied to one argument tree per input port. It also logs each call it builds, at
the moment compiling notes that call's include, so the log is the order of construction.

* `Expr.render` is the text of a tree, and `Expr.calls` lists its calls, outermost first;
* `Trace` is the state compiling collects, with trees in place of texts and the log of built
  calls, and `Trace.toBuilt` renders it back;
* `argumentTree` … `traceCompile` are the phases of compiling, on trees.

Main statement (`compile_eq_traceCompile`): rendering the traced run gives exactly the
includes, the `setup` and `loop` statements and the expression table that compiling gives. It is
proved phase by phase, each phase commuting with rendering.
-/

namespace Breadboard.Compiler

/-! ## Trees -/

/-- An expression as compiling builds it: text taken as it stands, or a call of a node with one
argument per input port. -/
inductive Expr where
  | text (s : String)
  | call (n : Node) (c : Call) (args : List Expr)
  deriving Inhabited

namespace Expr

mutual

/-- The text of an expression: a call is its call name applied to its arguments. -/
def render : Expr → String
  | text s => s
  | call _ c args => c.callName ++ "(" ++ ", ".intercalate (renderAll args) ++ ")"

/-- The texts of a list of expressions. -/
def renderAll : List Expr → List String
  | [] => []
  | e :: es => render e :: renderAll es

end

mutual

/-- The calls in an expression, outermost first, each with its node and its argument trees. -/
def calls : Expr → List (Node × Call × List Expr)
  | text _ => []
  | call n c args => (n, c, args) :: callsAll args

/-- The calls in a list of expressions, in order. -/
def callsAll : List Expr → List (Node × Call × List Expr)
  | [] => []
  | e :: es => calls e ++ callsAll es

end

@[simp] theorem renderAll_eq_map (es : List Expr) : renderAll es = es.map render := by
  induction es with
  | nil => rfl
  | cons e es ih => rw [renderAll, ih, List.map_cons]

@[simp] theorem callsAll_eq_flatMap (es : List Expr) : callsAll es = es.flatMap calls := by
  induction es with
  | nil => rfl
  | cons e es ih => rw [callsAll, ih, List.flatMap_cons]

@[simp] theorem render_text (s : String) : (text s).render = s := rfl

@[simp] theorem render_call (n : Node) (c : Call) (args : List Expr) :
    (call n c args).render = c.callName ++ "(" ++ ", ".intercalate (args.map render) ++ ")" := by
  rw [render, renderAll_eq_map]

@[simp] theorem calls_text (s : String) : (text s).calls = [] := rfl

@[simp] theorem calls_call (n : Node) (c : Call) (args : List Expr) :
    (call n c args).calls = (n, c, args) :: args.flatMap calls := by
  rw [calls, callsAll_eq_flatMap]

example :
    (call default ⟨"f", "L", none⟩ [text "1", call default ⟨"g", "L", none⟩ []]).render =
      "f(1, g())" := by
  decide

end Expr

/-- A statement as compiling builds it: a call expression, or a variable's declaration. -/
inductive Statement where
  | call (e : Expr)
  | declare (s : String)

namespace Statement

/-- The text of a statement: a call's expression followed by `;`, or the declaration. -/
def render : Statement → String
  | call e => e.render ++ ";"
  | declare s => s

/-- The calls in a statement, outermost first. -/
def calls : Statement → List (Node × Call × List Expr)
  | call e => e.calls
  | declare _ => []

end Statement

/-! ## The collected state -/

/-- What compiling has collected, with each bound expression kept as a tree, and the calls built
so far, in the order they were built. -/
structure Trace where
  includes : List String := []
  bound : List ((String × String) × Expr) := []
  built : List (Node × Call) := []

namespace Trace

/-- The state compiling holds at the same point: the bound trees rendered. -/
def toBuilt (t : Trace) : Built :=
  { includes := t.includes, bound := t.bound.map fun kv => (kv.1, kv.2.render) }

/-- The tree bound to an output of a node. -/
def lookup (t : Trace) (nodeId portId : String) : Option Expr :=
  t.bound.lookup (nodeId, portId)

/-- Binds a tree to an output of a node, replacing an earlier one. -/
def bind (t : Trace) (nodeId portId : String) (e : Expr) : Trace :=
  { t with bound := ((nodeId, portId), e) :: t.bound.filter (·.1 != (nodeId, portId)) }

/-- Notes the include of a call about to be built, as compiling does, and logs the call. -/
def note (t : Trace) (n : Node) (c : Call) : Trace :=
  { t with includes := (t.toBuilt.noteInclude c).includes, built := t.built ++ [(n, c)] }

/-- A state of compiling with each bound expression kept as text, and nothing logged. -/
def ofBuilt (b : Built) : Trace :=
  { includes := b.includes, bound := b.bound.map fun kv => (kv.1, .text kv.2) }

@[simp] theorem includes_toBuilt (t : Trace) : t.toBuilt.includes = t.includes := rfl

@[simp] theorem bound_note (t : Trace) (n : Node) (c : Call) : (t.note n c).bound = t.bound := rfl

@[simp] theorem built_note (t : Trace) (n : Node) (c : Call) :
    (t.note n c).built = t.built ++ [(n, c)] := rfl

@[simp] theorem built_bind (t : Trace) (nodeId portId : String) (e : Expr) :
    (t.bind nodeId portId e).built = t.built := rfl

@[simp] theorem includes_bind (t : Trace) (nodeId portId : String) (e : Expr) :
    (t.bind nodeId portId e).includes = t.includes := rfl

theorem lookup_toBuilt (t : Trace) (nodeId portId : String) :
    t.toBuilt.lookup nodeId portId = (t.lookup nodeId portId).map Expr.render := by
  simp only [toBuilt, Built.lookup, lookup]
  induction t.bound with
  | nil => rfl
  | cons kv l ih =>
    obtain ⟨k, e⟩ := kv
    simp only [List.map_cons, List.lookup_cons]
    by_cases hk : (nodeId, portId) = k
    · simp [hk]
    · have hb : ((nodeId, portId) == k) = false := beq_eq_false_iff_ne.mpr hk
      simp only [hb, ih]

theorem toBuilt_bind (t : Trace) (nodeId portId : String) (e : Expr) :
    (t.bind nodeId portId e).toBuilt = t.toBuilt.bind nodeId portId e.render := by
  simp only [toBuilt, bind, Built.bind, List.map_cons, List.filter_map]
  rfl

theorem toBuilt_note (t : Trace) (n : Node) (c : Call) :
    (t.note n c).toBuilt = t.toBuilt.noteInclude c := by
  have hbound := Built.bound_noteInclude t.toBuilt c
  show ({ includes := (t.toBuilt.noteInclude c).includes, bound := t.toBuilt.bound } : Built) = _
  rw [← hbound]

theorem toBuilt_ofBuilt (b : Built) : (ofBuilt b).toBuilt = b := by
  simp [toBuilt, ofBuilt, Function.comp_def]

end Trace

/-- A tree and the state after it, as compiling sees them. -/
def view (r : Expr × Trace) : String × Built := (r.1.render, r.2.toBuilt)

/-! ## The phases of compiling, on trees -/

section Phases

variable (g : Graph)

/-- The argument tree of input port `p` of call node `node`, read as `argument` reads it. -/
def argumentTree (node : Node) (path : List String)
    (rebuild : Node → Call → Trace → Option (Expr × Trace)) (t : Trace) (p : Port) :
    Expr × Trace :=
  match g.feed? node.id p.id with
  | none => (.text (fallbackArgument p), t)
  | some e =>
    match t.lookup e.source e.sourceHandle with
    | some x => (x, t)
    | none =>
      match g.find? e.source with
      | none => (.text (fallbackArgument p), t)
      | some src =>
        match src.kind with
        | .variable v => (.text (if v.name.isEmpty then fallbackArgument p else v.name), t)
        | .call sc =>
          if path.contains src.id then (.text (fallbackArgument p), t)
          else (rebuild src sc t).getD (.text (fallbackArgument p), t)
        | _ => (.text (fallbackArgument p), t)

/-- The argument trees of the ports `ps`, resolved in order. -/
def argumentsTree (node : Node) (path : List String)
    (rebuild : Node → Call → Trace → Option (Expr × Trace)) :
    Trace → List Port → List Expr × Trace
  | t, [] => ([], t)
  | t, p :: ps =>
    let r := argumentTree g node path rebuild t p
    let rs := argumentsTree node path rebuild r.2 ps
    (r.1 :: rs.1, rs.2)

/-- The call tree of `node`: its include noted and the call logged, then its arguments. -/
def callWithTree (node : Node) (c : Call) (path : List String)
    (rebuild : Node → Call → Trace → Option (Expr × Trace)) (t : Trace) : Expr × Trace :=
  let rs := argumentsTree g node path rebuild (t.note node c) node.inputs
  (.call node c rs.1, rs.2)

/-- The call tree of `node` under `path`, rebuilding upstream calls with one less fuel. -/
def callTree : Nat → Node → Call → List String → Trace → Expr × Trace
  | 0, node, c, path, t => callWithTree g node c path (fun _ _ _ => none) t
  | k + 1, node, c, path, t =>
    callWithTree g node c path (fun src sc t => some (callTree k src sc (src.id :: path) t)) t

/-- Binds a call's tree to each output with a value that a data edge reads. -/
def bindOutputs (n : Node) (e : Expr) (t : Trace) : Trace :=
  n.outputs.foldl
    (fun t p => if p.type != .void && g.isRead n.id p.id then t.bind n.id p.id e else t) t

/-- The statement of a call node reached by a procedure. -/
def callStatementTree (fuel : Nat) (n : Node) (c : Call) (t : Trace) : Statement × Trace :=
  let r := callTree g fuel n c [n.id] t
  (.call r.1, bindOutputs g n r.1 r.2)

/-- Appends the statement of the node with id `id`, if it makes one. -/
def statementStepTree (fuel : Nat) (acc : List Statement × Trace) (id : String) :
    List Statement × Trace :=
  match g.find? id with
  | some n =>
    match n.kind with
    | .call c =>
      let r := callStatementTree g fuel n c acc.2
      (acc.1 ++ [r.1], r.2)
    | .variable v =>
      if !v.isGlobal && !v.name.isEmpty then (acc.1 ++ [.declare v.declaration], acc.2) else acc
    | _ => acc
  | none => acc

/-- The statements of the nodes with the given ids, in order. -/
def statementsTree (fuel : Nat) (ids : List String) (t : Trace) : List Statement × Trace :=
  ids.foldl (statementStepTree g fuel) ([], t)

/-- Binds the tree of a call node that no procedure covers and that feeds a data edge. -/
def orphanStepTree (fuel : Nat) (setupIds loopIds : List String) (t : Trace) (n : Node) :
    Trace :=
  match n.kind with
  | .call c =>
    if setupIds.contains n.id || loopIds.contains n.id || !g.feedsData n.id then t
    else
      let r := callTree g fuel n c [n.id] t
      r.2.bind n.id ((n.outputs.head?.map (·.id)).getD Port.callOutputId) r.1
  | _ => t

/-- What compiling builds, as trees. -/
structure Traced where
  setup : List Statement
  loop : List Statement
  trace : Trace

/-- The calls of everything a traced run emits: the statements of `setup` and of `loop`, and
the trees of the expression table. -/
def Traced.emitted (r : Traced) : List (Node × Call × List Expr) :=
  (r.setup ++ r.loop).flatMap Statement.calls ++ r.trace.bound.flatMap fun kv => kv.2.calls

/-- Compiles a graph keeping its expressions as trees and logging every call built. -/
def traceCompile : Traced :=
  let fuel := g.nodes.length + 1
  let setupIds := ((g.entryPoint .setup "setup").map g.procedure).getD []
  let loopIds := ((g.entryPoint .loop "loop").map g.procedure).getD []
  let s := statementsTree g fuel setupIds (Trace.ofBuilt (declareVariables g).2)
  let l := statementsTree g fuel loopIds s.2
  { setup := s.1, loop := l.1,
    trace := (byId g).foldl (orphanStepTree g fuel setupIds loopIds) l.2 }

end Phases

/-! ## Rendering commutes with every phase -/

section Render

/-- A rebuild on trees renders to a rebuild on text. -/
def RendersTo (rebuildTree : Node → Call → Trace → Option (Expr × Trace))
    (rebuild : Node → Call → Built → Option (String × Built)) : Prop :=
  ∀ src sc t, rebuild src sc t.toBuilt = (rebuildTree src sc t).map view

variable {g : Graph} {node : Node} {path : List String}
  {rebuild : Node → Call → Built → Option (String × Built)}
  {rebuildTree : Node → Call → Trace → Option (Expr × Trace)}

theorem argument_toBuilt (hre : RendersTo rebuildTree rebuild) (t : Trace) (p : Port) :
    argument g node path rebuild t.toBuilt p = view (argumentTree g node path rebuildTree t p) := by
  unfold argument argumentTree
  rcases g.feed? node.id p.id with _ | e
  · rfl
  · dsimp only
    rw [Trace.lookup_toBuilt]
    rcases t.lookup e.source e.sourceHandle with _ | x
    · dsimp only [Option.map]
      rcases g.find? e.source with _ | src
      · rfl
      · dsimp only
        rcases src.kind with _ | _ | sc | v
        · rfl
        · rfl
        · dsimp only
          split
          · rfl
          · -- a rebuilt call renders to the text rebuilt
            rw [hre src sc t]
            rcases rebuildTree src sc t with _ | r <;> rfl
        · dsimp only
          split <;> rfl
    · rfl

theorem arguments_toBuilt (hre : RendersTo rebuildTree rebuild) :
    ∀ (t : Trace) (ps : List Port),
      arguments g node path rebuild t.toBuilt ps =
        ((argumentsTree g node path rebuildTree t ps).1.map Expr.render,
          (argumentsTree g node path rebuildTree t ps).2.toBuilt)
  | t, [] => rfl
  | t, p :: ps => by
    rw [arguments, argumentsTree, argument_toBuilt hre]
    dsimp only [view]
    rw [arguments_toBuilt hre]
    rfl

theorem callWith_toBuilt (hre : RendersTo rebuildTree rebuild) (c : Call) (t : Trace) :
    callWith g node c path rebuild t.toBuilt = view (callWithTree g node c path rebuildTree t) := by
  rw [callWith, callWithTree, ← Trace.toBuilt_note t node c, arguments_toBuilt hre]
  simp [view]

/-- Building a call on trees and rendering it is building it as text. The induction is on the
fuel, which both runs spend alike. -/
theorem callText_toBuilt (g : Graph) :
    ∀ (fuel : Nat) (node : Node) (c : Call) (path : List String) (t : Trace),
      callText g fuel node c path t.toBuilt = view (callTree g fuel node c path t)
  | 0, node, c, path, t => callWith_toBuilt (fun _ _ _ => rfl) c t
  | k + 1, node, c, path, t => callWith_toBuilt (fun src sc t => by
      rw [callText_toBuilt g k]
      rfl) c t

theorem bindOutputs_toBuilt (n : Node) (e : Expr) :
    ∀ (ps : List Port) (t : Trace),
      ps.foldl (fun b p => if p.type != .void && g.isRead n.id p.id then b.bind n.id p.id e.render
        else b) t.toBuilt =
      (ps.foldl (fun t p => if p.type != .void && g.isRead n.id p.id then t.bind n.id p.id e
        else t) t).toBuilt
  | [], t => rfl
  | p :: ps, t => by
    rw [List.foldl_cons, List.foldl_cons]
    split
    · rw [← Trace.toBuilt_bind, bindOutputs_toBuilt n e ps]
    · rw [bindOutputs_toBuilt n e ps]

theorem callStatement_toBuilt (fuel : Nat) (n : Node) (c : Call) (t : Trace) :
    callStatement g fuel n c t.toBuilt =
      ((callStatementTree g fuel n c t).1.render, (callStatementTree g fuel n c t).2.toBuilt) := by
  rw [callStatement, callText_toBuilt, view]
  dsimp only
  rw [bindOutputs_toBuilt]
  rfl

theorem statementStep_toBuilt (fuel : Nat) (ss : List Statement) (t : Trace) (id : String) :
    statementStep g fuel (ss.map Statement.render, t.toBuilt) id =
      ((statementStepTree g fuel (ss, t) id).1.map Statement.render,
        (statementStepTree g fuel (ss, t) id).2.toBuilt) := by
  unfold statementStep statementStepTree
  rcases g.find? id with _ | n
  · rfl
  · dsimp only
    rcases n.kind with _ | _ | c | v
    · rfl
    · rfl
    · dsimp only
      rw [callStatement_toBuilt]
      simp [Statement.render]
    · dsimp only
      split <;> simp [Statement.render]

theorem statements_toBuilt (fuel : Nat) :
    ∀ (ids : List String) (ss : List Statement) (t : Trace),
      ids.foldl (statementStep g fuel) (ss.map Statement.render, t.toBuilt) =
        ((ids.foldl (statementStepTree g fuel) (ss, t)).1.map Statement.render,
          (ids.foldl (statementStepTree g fuel) (ss, t)).2.toBuilt)
  | [], ss, t => rfl
  | id :: ids, ss, t => by
    rw [List.foldl_cons, List.foldl_cons, statementStep_toBuilt, statements_toBuilt fuel ids]

theorem orphanStep_toBuilt (fuel : Nat) (setupIds loopIds : List String) (t : Trace) (n : Node) :
    orphanStep g fuel setupIds loopIds t.toBuilt n =
      (orphanStepTree g fuel setupIds loopIds t n).toBuilt := by
  unfold orphanStep orphanStepTree
  rcases n.kind with _ | _ | c | v
  · rfl
  · rfl
  · dsimp only
    split
    · rfl
    · rw [callText_toBuilt, view, Trace.toBuilt_bind]
  · rfl

theorem orphans_toBuilt (fuel : Nat) (setupIds loopIds : List String) :
    ∀ (ns : List Node) (t : Trace),
      ns.foldl (orphanStep g fuel setupIds loopIds) t.toBuilt =
        (ns.foldl (orphanStepTree g fuel setupIds loopIds) t).toBuilt
  | [], t => rfl
  | n :: ns, t => by
    rw [List.foldl_cons, List.foldl_cons, orphanStep_toBuilt,
      orphans_toBuilt fuel setupIds loopIds ns]

end Render

/-- **Compiling is rendering the traced run.** The includes, the `setup` and `loop` statements
and the expression table of a compiled graph are those of `traceCompile`, with its trees
rendered. -/
theorem compile_eq_traceCompile (g : Graph) (o : Options) :
    (compile g o).includes = (traceCompile g).trace.includes ∧
    (compile g o).setup = (traceCompile g).setup.map Statement.render ∧
    (compile g o).loop = (traceCompile g).loop.map Statement.render ∧
    (compile g o).expressions = (traceCompile g).trace.toBuilt.bound := by
  -- start both runs from the declared variables and follow them phase by phase
  have hs := statements_toBuilt (g := g) (g.nodes.length + 1)
    (((g.entryPoint .setup "setup").map g.procedure).getD []) []
    (Trace.ofBuilt (declareVariables g).2)
  rw [Trace.toBuilt_ofBuilt] at hs
  have hl := statements_toBuilt (g := g) (g.nodes.length + 1)
    (((g.entryPoint .loop "loop").map g.procedure).getD []) []
    (statementsTree g (g.nodes.length + 1) (((g.entryPoint .setup "setup").map g.procedure).getD [])
      (Trace.ofBuilt (declareVariables g).2)).2
  have ho := orphans_toBuilt (g := g) (g.nodes.length + 1)
    (((g.entryPoint .setup "setup").map g.procedure).getD [])
    (((g.entryPoint .loop "loop").map g.procedure).getD []) (byId g)
  rw [compile_stages]
  simp only [statements, statementsTree, traceCompile, List.map_nil] at hs hl ⊢
  rw [hs, hl, ho]
  exact ⟨rfl, rfl, rfl, rfl⟩

end Breadboard.Compiler
