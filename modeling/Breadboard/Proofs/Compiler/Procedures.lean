import Breadboard.Proofs.Compiler.Declarations

/-!
# The statements of each procedure

Which statements `setup` and `loop` get, for every graph. From an entry point, execution edges
lead through calls and variables; an edge into an entry point, or into an id that names no
node, ends its branch. Every call or variable reached that way makes its procedure's
statements once: a call a statement that applies its call name, a local named variable its
declaration; a global or unnamed variable makes none, though the walk goes on through it.
Nothing else makes a statement.

* `Graph.discover_reaches`: discovery lists each reached call or variable once, and nothing
  else. Its invariant (`Graph.Discovering`) says that every id on the stack or visited is
  reached, and that the visited calls and variables have handed all their successors to the
  stack; when the stack runs empty, whatever is reached has been visited;
* `Compiler.foldl_statementStep_shape`: emitting writes one statement for each id that makes
  one, in order, of the shape `StatementOf` gives;
* `Compiler.compile_procedure_statements`: the two together, with the globals
  (`Compiler.declareVariables_globals`).
-/

namespace Breadboard

namespace Graph

variable {g : Graph}

/-! ## Reaching ids by execution edges -/

variable (g) in
/-- An execution edge runs from `a` to `b`: from handle `exec-out` of `a` to handle `exec-in`
of `b`. -/
def ExecEdge (a b : String) : Prop :=
  ∃ e ∈ g.edges, e.source = a ∧ e.sourceHandle = execOut ∧ e.target = b ∧ e.targetHandle = execIn

theorem mem_successors_iff {a b : String} : b ∈ g.successors a ↔ g.ExecEdge a b := by
  simp only [successors, List.mem_filterMap, ExecEdge]
  refine exists_congr fun e => and_congr_right fun _ => ?_
  by_cases hk : e.sourceHandle = execOut ∧ e.targetHandle = execIn
  · by_cases hs : e.source = a <;> simp [Edge.kind, hk, hs]
  · -- a data edge gives no successor and is no execution edge
    have hkind : e.kind = .data := if_neg hk
    constructor
    · simp [hkind]
    · rintro ⟨-, h₁, -, h₂⟩
      exact absurd ⟨h₁, h₂⟩ hk

variable (g) in
/-- The first node with the given id is a call or a variable. -/
def IsStepId (id : String) : Prop :=
  ∃ n, g.find? id = some n ∧ n.isStep = true

theorem isStepId_iff {id : String} {n : Node} (h : g.find? id = some n) :
    g.IsStepId id ↔ n.isStep = true := by
  simp [IsStepId, h]

theorem not_isStepId {id : String} (h : g.find? id = none) : ¬ g.IsStepId id := by
  simp [IsStepId, h]

variable (g) in
/-- `g.ExecReaches entry id`: execution edges lead from `entry` to `id`, and every id on the
way after `entry` names a call or a variable. -/
inductive ExecReaches (entry : String) : String → Prop
  | edge {id : String} : g.ExecEdge entry id → ExecReaches entry id
  | step {mid id : String} : ExecReaches entry mid → g.IsStepId mid → g.ExecEdge mid id →
      ExecReaches entry id

/-- A set of ids holding the targets of `entry` and every target of a call or variable it
holds holds every id reached from `entry`. -/
theorem ExecReaches.closed {entry id : String} {S : String → Prop}
    (hentry : ∀ x, g.ExecEdge entry x → S x)
    (hstep : ∀ y, S y → g.IsStepId y → ∀ x, g.ExecEdge y x → S x)
    (h : g.ExecReaches entry id) : S id := by
  induction h with
  | edge he => exact hentry _ he
  | step _ hs he ih => exact hstep _ ih hs _ he

/-! ## Discovery -/

variable (g) in
/-- What discovery from `entry` keeps, with the ids on its stack, the ids visited, and the
ids found (last first): every id on the stack or visited is reached; found are exactly the
visited calls and variables, each once; the targets of `entry`, and of every visited call or
variable, are visited or on the stack. -/
structure Discovering (entry : String) (stack visited found : List String) : Prop where
  stack_reached : ∀ x ∈ stack, g.ExecReaches entry x
  visited_reached : ∀ x ∈ visited, g.ExecReaches entry x
  found_step : ∀ x ∈ found, g.IsStepId x
  found_visited : ∀ x ∈ found, x ∈ visited
  step_found : ∀ x ∈ visited, g.IsStepId x → x ∈ found
  entry_closed : ∀ x, g.ExecEdge entry x → x ∈ visited ∨ x ∈ stack
  closed : ∀ y ∈ visited, g.IsStepId y → ∀ x, g.ExecEdge y x → x ∈ visited ∨ x ∈ stack
  nodup : found.Nodup

variable {entry id : String} {stack visited found : List String}

/-- Discovery starts with the targets of the entry point on its stack. -/
theorem discovering_start (entry : String) : g.Discovering entry (g.successors entry) [] [] where
  stack_reached := fun _ hx => .edge (mem_successors_iff.mp hx)
  visited_reached := fun _ h => absurd h List.not_mem_nil
  found_step := fun _ h => absurd h List.not_mem_nil
  found_visited := fun _ h => absurd h List.not_mem_nil
  step_found := fun _ h => absurd h List.not_mem_nil
  entry_closed := fun _ hx => .inr (mem_successors_iff.mpr hx)
  closed := fun _ h => absurd h List.not_mem_nil
  nodup := List.nodup_nil

/-- An id popped off the stack and visited leaves every id visited or on the stack where it
was. -/
theorem mem_pop {x id : String} {visited stack : List String}
    (hx : x ∈ visited ∨ x ∈ id :: stack) : x ∈ id :: visited ∨ x ∈ stack := by
  rcases hx with hx | hx
  · exact .inl (List.mem_cons_of_mem _ hx)
  · rcases List.mem_cons.mp hx with rfl | hx
    · exact .inl List.mem_cons_self
    · exact .inr hx

/-- Popping an id already visited. -/
theorem Discovering.skip (h : g.Discovering entry (id :: stack) visited found)
    (hv : id ∈ visited) : g.Discovering entry stack visited found :=
  have hrevisit : id :: visited ⊆ visited := List.cons_subset.mpr ⟨hv, List.Subset.refl _⟩
  { stack_reached := fun x hx => h.stack_reached x (List.mem_cons_of_mem _ hx)
    visited_reached := h.visited_reached
    found_step := h.found_step
    found_visited := h.found_visited
    step_found := h.step_found
    entry_closed := fun x hx => (mem_pop (h.entry_closed x hx)).imp_left fun h => hrevisit h
    closed := fun y hy hs x hx => (mem_pop (h.closed y hy hs x hx)).imp_left fun h => hrevisit h
    nodup := h.nodup }

/-- Popping a new id that names no call or variable: it is visited, not found, and its
targets are not followed. -/
theorem Discovering.pass (h : g.Discovering entry (id :: stack) visited found)
    (hs : ¬ g.IsStepId id) : g.Discovering entry stack (id :: visited) found where
  stack_reached := fun x hx => h.stack_reached x (List.mem_cons_of_mem _ hx)
  visited_reached := fun x hx => by
    rcases List.mem_cons.mp hx with rfl | hx
    · exact h.stack_reached x List.mem_cons_self
    · exact h.visited_reached x hx
  found_step := h.found_step
  found_visited := fun x hx => List.mem_cons_of_mem _ (h.found_visited x hx)
  step_found := fun x hx hsx => by
    rcases List.mem_cons.mp hx with rfl | hx
    · exact absurd hsx hs
    · exact h.step_found x hx hsx
  entry_closed := fun x hx => mem_pop (h.entry_closed x hx)
  closed := fun y hy hsy x hx => by
    rcases List.mem_cons.mp hy with rfl | hy
    · exact absurd hsy hs
    · exact mem_pop (h.closed y hy hsy x hx)
  nodup := h.nodup

/-- Popping a new id that names a call or a variable: it is visited and found, and its
targets go on the stack. -/
theorem Discovering.visit (h : g.Discovering entry (id :: stack) visited found)
    (hv : id ∉ visited) (hs : g.IsStepId id) :
    g.Discovering entry (g.successors id ++ stack) (id :: visited) (id :: found) where
  stack_reached := fun x hx => by
    rcases List.mem_append.mp hx with hx | hx
    · exact .step (h.stack_reached id List.mem_cons_self) hs (mem_successors_iff.mp hx)
    · exact h.stack_reached x (List.mem_cons_of_mem _ hx)
  visited_reached := fun x hx => by
    rcases List.mem_cons.mp hx with rfl | hx
    · exact h.stack_reached x List.mem_cons_self
    · exact h.visited_reached x hx
  found_step := fun x hx => by
    rcases List.mem_cons.mp hx with rfl | hx
    · exact hs
    · exact h.found_step x hx
  found_visited := fun x hx => by
    rcases List.mem_cons.mp hx with rfl | hx
    · exact List.mem_cons_self
    · exact List.mem_cons_of_mem _ (h.found_visited x hx)
  step_found := fun x hx hsx => by
    rcases List.mem_cons.mp hx with rfl | hx
    · exact List.mem_cons_self
    · exact List.mem_cons_of_mem _ (h.step_found x hx hsx)
  entry_closed := fun x hx =>
    (mem_pop (h.entry_closed x hx)).imp_right (List.mem_append_right _)
  closed := fun y hy hsy x hx => by
    rcases List.mem_cons.mp hy with rfl | hy
    · exact .inr (List.mem_append_left _ (mem_successors_iff.mpr hx))
    · exact (mem_pop (h.closed y hy hsy x hx)).imp_right (List.mem_append_right _)
  nodup := List.nodup_cons.mpr ⟨fun hf => hv (h.found_visited id hf), h.nodup⟩

/-- With the stack empty, the found ids are exactly the reached calls and variables: what is
reached is visited, since the visited ids hold the entry point's targets and the targets of
their calls and variables. -/
theorem Discovering.found_iff (h : g.Discovering entry [] visited found) (x : String) :
    x ∈ found ↔ g.ExecReaches entry x ∧ g.IsStepId x := by
  refine ⟨fun hx => ⟨h.visited_reached x (h.found_visited x hx), h.found_step x hx⟩,
    fun ⟨hr, hs⟩ => h.step_found x ?_ hs⟩
  exact hr.closed (fun y hy => by simpa using h.entry_closed y hy)
    (fun y hy hsy z hz => by simpa using h.closed y hy hsy z hz)

/-- Discovery run with fuel beyond its measure lists the reached calls and variables, each
once. The induction is on the fuel; each round pops one id and keeps the invariant. -/
theorem discoverFrom_reaches :
    ∀ (fuel : Nat) (stack visited found : List String), g.Discovering entry stack visited found →
      g.discoverMeasure stack visited < fuel →
      (g.discoverFrom fuel stack visited found).Nodup ∧
        ∀ x, x ∈ g.discoverFrom fuel stack visited found ↔ g.ExecReaches entry x ∧ g.IsStepId x
  | 0, _, _, _, _, hm => absurd hm (Nat.not_lt_zero _)
  | k + 1, [], visited, found, h, _ => by
    simp only [discoverFrom, List.nodup_reverse, List.mem_reverse]
    exact ⟨h.nodup, h.found_iff⟩
  | k + 1, id :: stack, visited, found, h, hm => by
    have hpop : g.discoverMeasure stack (id :: visited) + 1 ≤
        g.discoverMeasure (id :: stack) visited := discoverMeasure_pop
    simp only [discoverFrom]
    by_cases hv : visited.contains id = true
    · simp only [hv, if_true]
      have hlt : g.discoverMeasure stack visited < k := by
        simp only [discoverMeasure, List.length_cons] at hm ⊢
        omega
      exact discoverFrom_reaches k stack visited found (h.skip (by simpa using hv)) hlt
    · simp only [hv, Bool.false_eq_true, if_false]
      have hv' : id ∉ visited := by simpa using hv
      cases hf : g.find? id with
      | none => exact discoverFrom_reaches k _ _ _ (h.pass (not_isStepId hf)) (by omega)
      | some n =>
        simp only
        split
        · rename_i hstep
          have hvisit : g.discoverMeasure (g.successors id ++ stack) (id :: visited) + 1 =
              g.discoverMeasure (id :: stack) visited :=
            discoverMeasure_visit (Bool.eq_false_iff.mpr hv)
          exact discoverFrom_reaches k _ _ _ (h.visit hv' ((isStepId_iff hf).mpr hstep))
            (by omega)
        · rename_i hstep
          exact discoverFrom_reaches k _ _ _
            (h.pass fun hs => hstep ((isStepId_iff hf).mp hs)) (by omega)

/-- Discovery from an entry point lists each call or variable reached through calls and
variables once, and nothing else. -/
theorem discover_reaches (entry : String) :
    (g.discover entry).Nodup ∧ ∀ x, x ∈ g.discover entry ↔ g.ExecReaches entry x ∧ g.IsStepId x :=
  discoverFrom_reaches _ _ _ _ (discovering_start entry) (discoverMeasure_start entry)

/-- The ids of a procedure are the reached calls and variables, each once. -/
theorem procedure_reaches (entry : String) :
    (g.procedure entry).Nodup ∧
      ∀ x, x ∈ g.procedure entry ↔ g.ExecReaches entry x ∧ g.IsStepId x := by
  obtain ⟨-, hnd, hmem⟩ := dependencyOrder_sorting (g := g) (g.discover entry)
  refine ⟨hnd, fun x => ?_⟩
  rw [procedure, hmem, (discover_reaches entry).2]

/-! ## Statements -/

variable (g) in
/-- The first node with the given id makes a statement: it is a call, or a local named
variable. -/
def Emitting (id : String) : Prop :=
  ∃ n, g.find? id = some n ∧
    ((∃ c, n.kind = .call c) ∨ ∃ v, n.kind = .variable v ∧ v.isGlobal = false ∧ v.name ≠ "")

variable (g) in
/-- `s` is a statement of the first node with id `id`: a call's name applied to arguments,
followed by `;`, or a local named variable's declaration. -/
def StatementOf (id s : String) : Prop :=
  ∃ n, g.find? id = some n ∧
    ((∃ c args, n.kind = .call c ∧ s = c.callName ++ "(" ++ args ++ ");") ∨
      ∃ v, n.kind = .variable v ∧ v.isGlobal = false ∧ v.name ≠ "" ∧ s = v.declaration)

theorem IsStepId.of_emitting {id : String} (h : g.Emitting id) : g.IsStepId id := by
  obtain ⟨n, hn, ⟨c, hk⟩ | ⟨v, hk, -⟩⟩ := h <;> exact ⟨n, hn, by simp [Node.isStep, hk]⟩

variable (g) in
/-- `stmts` holds one statement of each call and local named variable that execution edges
reach from `entry` through calls and variables, and no other statement. -/
def StatementsFrom (entry : String) (stmts : List String) : Prop :=
  ∃ ids, ids.Nodup ∧ (∀ x, x ∈ ids ↔ g.ExecReaches entry x ∧ g.Emitting x) ∧
    List.Forall₂ g.StatementOf ids stmts

end Graph

namespace Compiler

open Breadboard.Graph

variable {g : Graph} {fuel : Nat}

/-- A call expression is the call's name applied to its arguments. -/
theorem callText_shape (g : Graph) (fuel : Nat) (n : Node) (c : Call) (path : List String)
    (b : Built) : ∃ args, (callText g fuel n c path b).1 = c.callName ++ "(" ++ args ++ ")" := by
  cases fuel <;> exact ⟨_, rfl⟩

/-- One step of emitting appends a statement of the id exactly when the id makes one. -/
theorem statementStep_shape (g : Graph) (fuel : Nat) (acc : List String × Built) (id : String) :
    (g.Emitting id ∧ ∃ s, (statementStep g fuel acc id).1 = acc.1 ++ [s] ∧ g.StatementOf id s) ∨
      (¬ g.Emitting id ∧ (statementStep g fuel acc id).1 = acc.1) := by
  obtain ⟨out, b⟩ := acc
  unfold statementStep
  dsimp only
  rcases hf : g.find? id with _ | n
  · exact .inr ⟨fun ⟨n, hn, _⟩ => by simp [hf] at hn, rfl⟩
  · dsimp only
    rcases hk : n.kind with _ | _ | c | v
    · exact .inr ⟨fun ⟨m, hm, h⟩ => by cases hf ▸ hm; simp [hk] at h, rfl⟩
    · exact .inr ⟨fun ⟨m, hm, h⟩ => by cases hf ▸ hm; simp [hk] at h, rfl⟩
    · -- a call: its expression, then `;`
      obtain ⟨args, hargs⟩ := callText_shape g fuel n c [n.id] b
      have hst : (callStatement g fuel n c b).1 = c.callName ++ "(" ++ args ++ ");" := by
        have h : (callStatement g fuel n c b).1 = (callText g fuel n c [n.id] b).1 ++ ";" := rfl
        rw [h, hargs, String.append_assoc]
        rfl
      exact .inl ⟨⟨n, hf, .inl ⟨c, hk⟩⟩, _, rfl, n, hf, .inl ⟨c, args, hk, hst⟩⟩
    · dsimp only
      split
      · rename_i hloc
        simp only [Bool.and_eq_true, Bool.not_eq_true', String.isEmpty_eq_false_iff] at hloc
        exact .inl ⟨⟨n, hf, .inr ⟨v, hk, hloc⟩⟩, _, rfl, n, hf,
          .inr ⟨v, hk, hloc.1, hloc.2, rfl⟩⟩
      · rename_i hnot
        refine .inr ⟨fun ⟨m, hm, h⟩ => ?_, rfl⟩
        cases hf ▸ hm
        rcases h with ⟨c, hc⟩ | ⟨v', hv', hg, hname⟩
        · simp [hk] at hc
        · rw [hk] at hv'
          cases hv'
          simp [hg, hname] at hnot

/-- Emitting the statements of a list of ids appends one statement for each id that makes
one, in order. -/
theorem foldl_statementStep_shape (g : Graph) (fuel : Nat) :
    ∀ (ids : List String) (acc : List String × Built), ∃ emitted out,
      (ids.foldl (statementStep g fuel) acc).1 = acc.1 ++ out ∧ emitted.Sublist ids ∧
        (∀ x ∈ ids, g.Emitting x → x ∈ emitted) ∧ (∀ x ∈ emitted, g.Emitting x) ∧
        List.Forall₂ g.StatementOf emitted out
  | [], acc => ⟨[], [], by simp, .slnil, by simp, by simp, .nil⟩
  | id :: ids, acc => by
    obtain ⟨emitted, out, hout, hsub, hall, hemit, hstmts⟩ :=
      foldl_statementStep_shape g fuel ids (statementStep g fuel acc id)
    rw [List.foldl_cons]
    rcases statementStep_shape g fuel acc id with ⟨hid, s, hs, hsof⟩ | ⟨hid, hs⟩
    · refine ⟨id :: emitted, s :: out, by simp [hout, hs], hsub.cons_cons id, fun x hx hx' => ?_,
        fun x hx => ?_, .cons hsof hstmts⟩
      · rcases List.mem_cons.mp hx with rfl | hx
        · exact List.mem_cons_self
        · exact List.mem_cons_of_mem _ (hall x hx hx')
      · rcases List.mem_cons.mp hx with rfl | hx
        · exact hid
        · exact hemit x hx
    · refine ⟨emitted, out, by rw [hout, hs], hsub.cons id, fun x hx hx' => ?_, hemit, hstmts⟩
      rcases List.mem_cons.mp hx with rfl | hx
      · exact absurd hx' hid
      · exact hall x hx hx'

/-- The statements of a procedure are one for each reached call and local named variable. -/
theorem statements_procedure (entry : String) (b : Built) :
    g.StatementsFrom entry (statements g fuel (g.procedure entry) b).1 := by
  obtain ⟨hnd, hmem⟩ := procedure_reaches (g := g) entry
  obtain ⟨emitted, out, hout, hsub, hall, hemit, hstmts⟩ :=
    foldl_statementStep_shape g fuel (g.procedure entry) ([], b)
  refine ⟨emitted, hsub.nodup hnd, fun x => ⟨fun hx => ?_, fun ⟨hr, hx⟩ => ?_⟩, ?_⟩
  · exact ⟨((hmem x).mp (hsub.subset hx)).1, hemit x hx⟩
  · exact hall x ((hmem x).mpr ⟨hr, IsStepId.of_emitting hx⟩) hx
  · rw [statements, hout, List.nil_append]
    exact hstmts

/-- **The statements of each procedure.** For every graph, `setup` holds one statement for
each call and each local named variable that execution edges reach from the `setup` entry
point through calls and variables (ids resolved to their first node), and no other statement:
a call applies its call name and ends with `;`, a variable is declared; without a `setup`
entry point it holds nothing. The same holds of `loop` from the `loop` entry point, so a node
reached from both has a statement in each. The globals are the declarations of the named
global variables, in id order. -/
theorem compile_procedure_statements (g : Graph) (o : Options) :
    (g.entryPoint .setup "setup").elim ((compile g o).setup = [])
      (fun entry => g.StatementsFrom entry (compile g o).setup) ∧
    (g.entryPoint .loop "loop").elim ((compile g o).loop = [])
      (fun entry => g.StatementsFrom entry (compile g o).loop) ∧
    (compile g o).globals = (byId g).filterMap Node.globalDeclaration? := by
  rw [compile_stages]
  refine ⟨?_, ?_, declareVariables_globals g⟩
  · cases g.entryPoint .setup "setup" with
    | none => rfl
    | some entry => exact statements_procedure entry _
  · cases g.entryPoint .loop "loop" with
    | none => rfl
    | some entry => exact statements_procedure entry _

end Compiler

end Breadboard
