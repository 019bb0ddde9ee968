import Mathlib
import Breadboard.Proofs.Compiler.DanglingEdges
import Breadboard.Proofs.Text.Scan

/-!
# Palette nodes compile to their call with defaults

A node made from the palette for a library function has one input port per parameter, seeded
with the parameter's default value. Placed in a new sketch and run from `loop` by one execution
edge, nothing feeds its ports, so each argument is the port's own value: the default when there
is one and it is not empty, else the zero value of the parameter's type.

Main statement (`compile_palette_node`): for every library, every function (free function,
method or constructor) and every node id other than `setup` and `loop`, the compiled sketch has
no globals and no `setup` statement, its `loop` is the one call of the function with those
arguments, and its includes are the library's include directive trimmed, or none when that is
blank.
-/

namespace Breadboard

/-- The argument passed for a parameter that nothing feeds: its default value when present and
not empty, else the zero value of its type. -/
def Parameter.defaultArgument (p : Parameter) : String :=
  (p.defaultValue.filter fun d => !d.isEmpty).getD p.type.zeroValue

/-- The input ports the palette makes never carry the handle of an execution edge. -/
theorem Port.inputId_ne_execIn (i : Nat) : Port.inputId i ≠ execIn := by
  intro h
  have := congrArg (fun s => s.toList.head?) h
  simp [Port.inputId, execIn] at this

namespace Compiler

open Breadboard.Graph

variable {g : Graph}

/-! ## Calls that nothing feeds -/

/-- A fold whose step leaves the accumulator alone on every element returns it. -/
theorem foldl_eq_self {α β : Type} {f : β → α → β} {b : β} :
    ∀ {l : List α}, (∀ a ∈ l, f b a = b) → l.foldl f b = b
  | [], _ => rfl
  | a :: l, h => by
    rw [List.foldl_cons, h a List.mem_cons_self]
    exact foldl_eq_self fun x hx => h x (List.mem_cons_of_mem a hx)

theorem arguments_of_unfed {node : Node} {path : List String}
    {rebuild : Node → Call → Built → Option (String × Built)} :
    ∀ (ps : List Port), (∀ p ∈ ps, g.feed? node.id p.id = none) → ∀ b,
      arguments g node path rebuild b ps = (ps.map fallbackArgument, b)
  | [], _, b => rfl
  | p :: ps, h, b => by
    have hp : argument g node path rebuild b p = (fallbackArgument p, b) := by
      simp [argument, h p List.mem_cons_self]
    simp only [arguments, hp, arguments_of_unfed ps (fun q hq => h q (List.mem_cons_of_mem p hq)),
      List.map_cons]

/-- A call whose input ports no edge feeds applies its name to their fallbacks, whatever the
fuel, the path and what was built before. -/
theorem callText_of_unfed {fuel : Nat} {node : Node} {c : Call} {path : List String} {b : Built}
    (h : ∀ p ∈ node.inputs, g.feed? node.id p.id = none) :
    callText g fuel node c path b =
      (c.callName ++ "(" ++ ", ".intercalate (node.inputs.map fallbackArgument) ++ ")",
        b.noteInclude c) := by
  cases fuel <;> simp only [callText, callWith, arguments_of_unfed node.inputs h]

/-- A call statement whose outputs no data edge reads binds nothing. -/
theorem callStatement_of_unread {fuel : Nat} {n : Node} {c : Call} {b : Built}
    (h : ∀ p ∈ n.outputs, g.isRead n.id p.id = false) :
    callStatement g fuel n c b =
      ((callText g fuel n c [n.id] b).1 ++ ";", (callText g fuel n c [n.id] b).2) := by
  simp only [callStatement]
  rw [foldl_eq_self fun p hp => by simp [h p hp]]

theorem declareVariables_of_no_variable (h : ∀ n ∈ g.nodes, ∀ v, n.kind ≠ .variable v) :
    declareVariables g = ([], {}) := by
  refine foldl_eq_self fun n hn => ?_
  unfold declareStep
  rcases hkind : n.kind with _ | _ | c | v
  · rfl
  · rfl
  · rfl
  · exact absurd hkind (h n (List.mem_mergeSort.mp hn) v)

/-- A port made from a parameter falls back on the parameter's default argument. -/
theorem fallbackArgument_ofParameter (p : Parameter) (i : Nat) :
    fallbackArgument ⟨Port.inputId i, p.name, p.type, p.defaultValue, false⟩ = p.defaultArgument := by
  cases hd : p.defaultValue with
  | none => simp [fallbackArgument, Port.literalText?, Parameter.defaultArgument, hd]
  | some d =>
    by_cases he : d.isEmpty <;>
      simp [fallbackArgument, Port.literalText?, Parameter.defaultArgument, Option.filter, hd, he]

theorem ofFunction_kind (id : String) (f : FunctionDecl) (l : Library) :
    (Node.ofFunction id f l).kind = .call ⟨f.qualifiedName, l.name, l.directive⟩ := rfl

theorem ofFunction_fallbacks (id : String) (f : FunctionDecl) (l : Library) :
    (Node.ofFunction id f l).inputs.map fallbackArgument =
      f.parameters.map Parameter.defaultArgument := by
  rw [Node.ofFunction, List.map_map]
  have hfun : (fallbackArgument ∘ fun (x : Parameter × Nat) =>
      Port.mk (Port.inputId x.2) x.1.name x.1.type x.1.defaultValue false) =
      Parameter.defaultArgument ∘ Prod.fst :=
    funext fun x => fallbackArgument_ofParameter x.1 x.2
  rw [hfun, ← List.map_map, List.zipIdx_map_fst]

/-- Noting the include of a call into a library notes the library's include directive trimmed,
unless it is blank. -/
theorem includes_noteInclude_directive (l : Library) (name lib : String) :
    (({} : Built).noteInclude ⟨name, lib, l.directive⟩).includes =
      if (Text.trim l.includeStatement).isEmpty then [] else [Text.trim l.includeStatement] := by
  by_cases he : (Text.trim l.includeStatement).isEmpty
  · simp [Built.noteInclude, Library.directive, he]
  · simp [Built.noteInclude, Library.directive, he, Text.trim_trim]

end Compiler

/-! ## A new sketch with one palette node -/

namespace Graph

section Palette

variable (id : String) (f : FunctionDecl) (l : Library)

/-- A new sketch with the palette node `id` for function `f` of library `l`, run from `loop`. -/
def paletteGraph : Graph :=
  (Graph.new.withNode (Node.ofFunction id f l)).withEdge (Edge.exec "loop" id)

variable {id f l}

theorem paletteGraph_nodes :
    (paletteGraph id f l).nodes = [Node.setupEntry, Node.loopEntry, Node.ofFunction id f l] := rfl

theorem paletteGraph_edges : (paletteGraph id f l).edges = [Edge.exec "loop" id] := rfl

theorem paletteGraph_entry_setup :
    (paletteGraph id f l).entryPoint .setup "setup" = some "setup" := by
  simp [entryPoint, paletteGraph_nodes, Node.ofFunction, Node.setupEntry, Node.loopEntry]

theorem paletteGraph_entry_loop : (paletteGraph id f l).entryPoint .loop "loop" = some "loop" := by
  simp [entryPoint, paletteGraph_nodes, Node.ofFunction, Node.setupEntry, Node.loopEntry]

theorem paletteGraph_procedure_setup : (paletteGraph id f l).procedure "setup" = [] := by
  simp [procedure, discover, successors, paletteGraph_edges, Edge.exec, Edge.kind, discoverFrom,
    dependencyOrder]

theorem paletteGraph_successors_loop : (paletteGraph id f l).successors "loop" = [id] := by
  simp [successors, paletteGraph_edges, Edge.exec, Edge.kind]

theorem paletteGraph_producers : (paletteGraph id f l).producers id = [] := by
  simp [producers, paletteGraph_edges, Edge.exec]

/-- The only edge goes into `exec-in`, so no input port of the palette node is fed. -/
theorem paletteGraph_feed (i : Nat) : (paletteGraph id f l).feed? id (Port.inputId i) = none := by
  simp [feed?, paletteGraph_edges, Edge.exec, Ne.symm (Port.inputId_ne_execIn i)]

theorem paletteGraph_isRead (nodeId portId : String) :
    (paletteGraph id f l).isRead nodeId portId = false := by
  simp [isRead, paletteGraph_edges, Edge.exec, Edge.kind]

theorem paletteGraph_successors (hl : id ≠ "loop") : (paletteGraph id f l).successors id = [] := by
  simp [successors, paletteGraph_edges, Edge.exec, Edge.kind, Ne.symm hl]

variable (hs : id ≠ "setup") (hl : id ≠ "loop")
include hs hl

theorem paletteGraph_find : (paletteGraph id f l).find? id = some (Node.ofFunction id f l) := by
  simp [find?, paletteGraph_nodes, Node.ofFunction, Node.setupEntry, Node.loopEntry, Ne.symm hs,
    Ne.symm hl]

theorem paletteGraph_procedure_loop : (paletteGraph id f l).procedure "loop" = [id] := by
  have hdiscover : (paletteGraph id f l).discover "loop" = [id] := by
    simp [discover, paletteGraph_edges, paletteGraph_successors_loop, discoverFrom,
      paletteGraph_successors hl, paletteGraph_find hs hl, Node.isStep, Node.ofFunction]
  simp [procedure, hdiscover, dependencyOrder, place, paletteGraph_producers]

end Palette

end Graph

namespace Compiler

open Breadboard.Graph

section Palette

variable {id : String} {f : FunctionDecl} {l : Library}

theorem paletteGraph_declareVariables : declareVariables (paletteGraph id f l) = ([], {}) := by
  refine declareVariables_of_no_variable fun m hm v => ?_
  simp only [paletteGraph_nodes, List.mem_cons, List.not_mem_nil, or_false] at hm
  rcases hm with rfl | rfl | rfl <;> simp [Node.setupEntry, Node.loopEntry, Node.ofFunction]

/-- A call into `l` is read by nothing and fed by nothing, so the loop's one statement is the
call of `f` with its default arguments, and it binds nothing. -/
theorem paletteGraph_statements_loop (hs : id ≠ "setup") (hl : id ≠ "loop") (fuel : Nat)
    (b : Built) :
    statements (paletteGraph id f l) fuel [id] b =
      ([f.qualifiedName ++ "(" ++ ", ".intercalate (f.parameters.map Parameter.defaultArgument) ++
          ");"],
        b.noteInclude ⟨f.qualifiedName, l.name, l.directive⟩) := by
  have hunfed : ∀ p ∈ (Node.ofFunction id f l).inputs,
      (paletteGraph id f l).feed? (Node.ofFunction id f l).id p.id = none := by
    intro p hp
    simp only [Node.ofFunction, List.mem_map] at hp
    obtain ⟨⟨q, i⟩, -, rfl⟩ := hp
    exact paletteGraph_feed i
  have hstmt : callStatement (paletteGraph id f l) fuel (Node.ofFunction id f l)
      ⟨f.qualifiedName, l.name, l.directive⟩ b =
      (f.qualifiedName ++ "(" ++ ", ".intercalate (f.parameters.map Parameter.defaultArgument) ++
          ");", b.noteInclude ⟨f.qualifiedName, l.name, l.directive⟩) := by
    rw [callStatement_of_unread fun p _ => paletteGraph_isRead _ p.id, callText_of_unfed hunfed,
      ofFunction_fallbacks, String.append_assoc, show ")" ++ ";" = ");" from rfl]
  simp only [statements, List.foldl_cons, List.foldl_nil, statementStep, paletteGraph_find hs hl,
    ofFunction_kind, hstmt, List.nil_append]

/-- The palette node is a statement of `loop`, so the pass over calls outside both procedures
leaves everything as it was. -/
theorem paletteGraph_orphans (fuel : Nat) (setupIds : List String) (b : Built) :
    (byId (paletteGraph id f l)).foldl (orphanStep (paletteGraph id f l) fuel setupIds [id]) b =
      b := by
  refine foldl_eq_self fun m hm => ?_
  have hm := List.mem_mergeSort.mp hm
  simp only [paletteGraph_nodes, List.mem_cons, List.not_mem_nil, or_false] at hm
  rcases hm with rfl | rfl | rfl
  · rfl
  · rfl
  · simp [orphanStep, Node.ofFunction]

end Palette

/-- **Palette nodes compile to their call with defaults.** A new sketch with one node made from
the palette for function `f` of library `l` (a free function, a method or a constructor), run
from `loop` by one execution edge, compiles to no global and no `setup` statement; `loop` is the
call of `f` by its call name, one argument per parameter in order (the default value if present
and not empty, else the zero value of its type); the includes are the library's include
directive trimmed, or none when it is blank. -/
theorem compile_palette_node (l : Library) (f : FunctionDecl) (id : String) (hs : id ≠ "setup")
    (hl : id ≠ "loop") (o : Options) :
    let g := (Graph.new.withNode (Node.ofFunction id f l)).withEdge (Edge.exec "loop" id)
    (compile g o).setup = [] ∧ (compile g o).globals = [] ∧
    (compile g o).loop =
      [f.qualifiedName ++ "(" ++ ", ".intercalate (f.parameters.map Parameter.defaultArgument) ++
        ");"] ∧
    (compile g o).includes =
      if (Text.trim l.includeStatement).isEmpty then [] else [Text.trim l.includeStatement] := by
  show (compile (paletteGraph id f l) o).setup = [] ∧ (compile (paletteGraph id f l) o).globals = [] ∧
    (compile (paletteGraph id f l) o).loop = _ ∧ (compile (paletteGraph id f l) o).includes = _
  have hsetup : (((paletteGraph id f l).entryPoint .setup "setup").map
      (paletteGraph id f l).procedure).getD [] = [] := by
    simp [paletteGraph_entry_setup, paletteGraph_procedure_setup]
  have hloop : (((paletteGraph id f l).entryPoint .loop "loop").map
      (paletteGraph id f l).procedure).getD [] = [id] := by
    simp [paletteGraph_entry_loop, paletteGraph_procedure_loop hs hl]
  rw [compile_stages, paletteGraph_declareVariables, hsetup, hloop]
  dsimp only
  rw [show statements (paletteGraph id f l) _ [] {} = ([], {}) from rfl,
    paletteGraph_statements_loop hs hl, paletteGraph_orphans]
  exact ⟨rfl, rfl, rfl, includes_noteInclude_directive l f.qualifiedName l.name⟩

/-- A servo library whose include directive has blank margins, and a method with a default, an
empty default and no default. -/
def servoLibrary : Library := Library.named "Servo" "  #include <Servo.h>\n"

def servoWrite : FunctionDecl :=
  FunctionDecl.method "Servo" "write" .void
    [{ name := "angle", type := .int, defaultValue := some "90" },
      { name := "speed", type := .float, defaultValue := some "" }, { name := "wait", type := .bool }]

/-- The node id `w` is neither entry point, so the palette node for `Servo.write` compiles to its
call with defaults. -/
theorem compile_palette_node_servoWrite :
    "w" ≠ "setup" ∧ "w" ≠ "loop" ∧
    let g := (Graph.new.withNode (Node.ofFunction "w" servoWrite servoLibrary)).withEdge
      (Edge.exec "loop" "w")
    (compile g).setup = [] ∧ (compile g).globals = [] ∧
    (compile g).loop =
      [servoWrite.qualifiedName ++ "(" ++
        ", ".intercalate (servoWrite.parameters.map Parameter.defaultArgument) ++ ");"] ∧
    (compile g).includes =
      if (Text.trim servoLibrary.includeStatement).isEmpty then []
      else [Text.trim servoLibrary.includeStatement] :=
  ⟨by decide, by decide, compile_palette_node servoLibrary servoWrite "w" (by decide) (by decide) {}⟩

end Compiler

end Breadboard
