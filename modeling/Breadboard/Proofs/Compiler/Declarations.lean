import Breadboard.Proofs.Compiler.DependencyOrder

/-!
# Declarations come before reads

Reading a named variable's output means reading its name, so compiled code is well formed
only where every name it reads is declared first. A global variable's declaration always goes
to the globals. A local one is declared by a statement of the procedure that reaches it
through execution edges, at its place in the dependency order; nothing else declares it.

Each id of a procedure makes at most one statement (`Graph.makesStatement`), in order, so
the statement of a call is the one that follows the statements of the ids before it. The
dependency order puts an id after the members that feed it, except where the two lie on a data
cycle among the members (`Graph.dependencyOrder_sorting`). This file proves what that
guarantees, for every graph:

* `compile_declares_before_reads`: every named global variable is declared among the globals;
  and when a call of a procedure reads a local named variable, directly or through calls it
  reads, with the variable and every call on the way among the ids of that procedure and on no
  data cycle among them, the variable's declaration is one of the statements of the ids before
  the call, which all precede the call's own statement (`Graph.DeclaresBeforeReads`);
* `compile_reads_undeclared_local`: a local variable read by a call of `loop` but reached by no
  execution edge is never declared.
-/

namespace Breadboard

open Compiler

/-- Whether the node with id `id` makes a statement of a procedure: a call its call statement,
a local named variable its declaration. -/
def Graph.makesStatement (g : Graph) (id : String) : Bool :=
  match g.find? id with
  | some n =>
    match n.kind with
    | .call _ => true
    | .variable v => !v.isGlobal && !v.name.isEmpty
    | _ => false
  | none => false

namespace Graph

variable {g : Graph}

/-! ## Reading through the statements of a procedure -/

section Reads

variable (g) in
/-- Id `x` lies on no cycle of data edges among the ids `ids`. -/
def OffCycles (ids : List String) (x : String) : Prop :=
  ¬ Relation.TransGen (g.FeedsWithin ids) x x

/-- `g.ReadsWithin ids n v`: call `n` reads node `v` through the first edge into one of its
input ports other than `exec-in`, directly or through calls it reads the same way; `v` and
every call on the way have ids in `ids` and lie on no data cycle among them. -/
inductive ReadsWithin (g : Graph) (ids : List String) : Node → Node → Prop
  | direct {n v : Node} {p : Port} (hp : p ∈ n.inputs) (hdata : p.id ≠ execIn)
      (hs : g.source? n p = some v) (hv : v.id ∈ ids) (hoff : g.OffCycles ids v.id) :
      ReadsWithin g ids n v
  | call {n s v : Node} {p : Port} {c : Call} (hp : p ∈ n.inputs) (hdata : p.id ≠ execIn)
      (hs : g.source? n p = some s) (hk : s.kind = .call c) (hsi : s.id ∈ ids)
      (hoff : g.OffCycles ids s.id) (hrest : ReadsWithin g ids s v) : ReadsWithin g ids n v

/-- The node a port reads from is the node its id names. -/
theorem find?_of_source? {n s : Node} {p : Port} (hs : g.source? n p = some s) :
    g.find? s.id = some s := by
  obtain ⟨e, -, hfind⟩ := Option.bind_eq_some_iff.mp hs
  rw [(find?_spec hfind).2]
  exact hfind

/-- The node a port other than `exec-in` reads from feeds the reading node. -/
theorem feeds_of_source? {n s : Node} {p : Port} (hs : g.source? n p = some s)
    (hdata : p.id ≠ execIn) : g.Feeds s.id n.id := by
  obtain ⟨e, hfeed, hfind⟩ := Option.bind_eq_some_iff.mp hs
  have he : e ∈ g.edges := List.mem_of_find?_eq_some hfeed
  obtain ⟨htarget, hhandle⟩ : e.target = n.id ∧ e.targetHandle = p.id := by
    simpa using List.find?_some hfeed
  have hid : s.id = e.source := (find?_spec hfind).2
  simp only [Feeds, producers, List.mem_filterMap]
  exact ⟨e, he, by simp [htarget, hhandle, hdata, hid]⟩

/-- A node read within a procedure is the node its id names. -/
theorem ReadsWithin.find? {ids : List String} {n v : Node} (h : g.ReadsWithin ids n v) :
    g.find? v.id = some v := by
  induction h with
  | direct _ _ hs => exact find?_of_source? hs
  | call _ _ _ _ _ _ _ ih => exact ih

/-- A member on no data cycle among the members is not fed back by a node it feeds. -/
theorem OffCycles.not_fed_back {ids : List String} {a b : String} (ha : a ∈ ids)
    (hoff : g.OffCycles ids a) (hab : g.Feeds a b) :
    ¬ Relation.TransGen (g.FeedsWithin ids) b a := fun hback => by
  obtain ⟨c, hbc, -⟩ := Relation.TransGen.head'_iff.mp hback
  exact hoff (.head ⟨ha, hbc.1, hab⟩ hback)

/-- A rank that every data edge raises puts no id on a data cycle. -/
theorem offCycles_of_rank (r : String → Nat) (h : ∀ a b, g.Feeds a b → r a < r b)
    (ids : List String) (x : String) : g.OffCycles ids x := fun hc => by
  have hlt : Relation.TransGen (· < ·) (r x) (r x) :=
    Relation.TransGen.lift r (fun a b hab => h a b hab.2.2) x x hc
  rw [Relation.transGen_eq_self] at hlt
  exact Nat.lt_irrefl _ hlt

/-- In an order of the ids that puts every id after the ids that feed it, those it feeds back
apart, a node read within the ids comes before the reader. -/
theorem ReadsWithin.before {ids : List String} (hff : g.FeedsFirstOffCycles ids ids) {n v : Node}
    (h : g.ReadsWithin ids n v) : Before ids v.id n.id := by
  induction h with
  | direct _ hdata hs hv hoff =>
    have hf := feeds_of_source? hs hdata
    exact hff _ _ hv hf (hoff.not_fed_back hv hf)
  | call _ hdata hs _ hsi hoff _ ih =>
    have hf := feeds_of_source? hs hdata
    exact ih.trans (hff _ _ hsi hf (hoff.not_fed_back hsi hf))

/-- The ids of a procedure, or none without its entry point, come after the ids of the
procedure that feed them, those they feed back apart. -/
theorem feedsFirstOffCycles_procedureIds (start : Option String) :
    g.FeedsFirstOffCycles ((start.map g.procedure).getD []) ((start.map g.procedure).getD []) := by
  cases start with
  | none => exact fun _ _ h => absurd h List.not_mem_nil
  | some entry =>
    obtain ⟨hff, -, hmem⟩ := dependencyOrder_sorting (g := g) (g.discover entry)
    exact hff.of_mem_iff fun x => (hmem x).symm

end Reads

end Graph

/-! ## Where the statements of an id stand -/

namespace Compiler

open Breadboard.Graph

variable {g : Graph}

/-- A call's statement is its call name applied to some arguments, followed by `;`. -/
theorem callStatement_shape (fuel : Nat) (n : Node) (c : Call) (b : Built) :
    ∃ args, (callStatement g fuel n c b).1 = c.callName ++ "(" ++ ", ".intercalate args ++ ")" ++ ";" := by
  cases fuel with
  | zero => exact ⟨_, rfl⟩
  | succ k => exact ⟨_, rfl⟩

/-- An id naming a call appends the call's statement. -/
theorem statementStep_call (fuel : Nat) {id : String} {n : Node} {c : Call} (hn : g.find? id = some n)
    (hk : n.kind = .call c) (out : List String) (b : Built) :
    ∃ args, (statementStep g fuel (out, b) id).1 =
      out ++ [c.callName ++ "(" ++ ", ".intercalate args ++ ")" ++ ";"] := by
  obtain ⟨args, hargs⟩ := callStatement_shape (g := g) fuel n c b
  refine ⟨args, ?_⟩
  simp only [statementStep, hn, hk]
  rw [← hargs]

/-- An id naming a local named variable appends the variable's declaration. -/
theorem statementStep_declare (fuel : Nat) {id : String} {n : Node} {d : Variable} (hn : g.find? id = some n)
    (hk : n.kind = .variable d) (hloc : d.isGlobal = false) (hname : d.name ≠ "")
    (out : List String) (b : Built) :
    (statementStep g fuel (out, b) id).1 = out ++ [d.declaration] := by
  have hne : d.name.isEmpty = false := by simpa using hname
  simp [statementStep, hn, hk, hloc, hne]

/-- An id appends one statement if it makes one, and none otherwise. -/
theorem statementStep_fst (fuel : Nat) (out : List String) (b : Built) (id : String) :
    ∃ extra, (statementStep g fuel (out, b) id).1 = out ++ extra ∧
      extra.length = if g.makesStatement id then 1 else 0 := by
  rcases hf : g.find? id with _ | n
  · exact ⟨[], by simp [statementStep, hf], by simp [makesStatement, hf]⟩
  · rcases hk : n.kind with _ | _ | c | v
    · exact ⟨[], by simp [statementStep, hf, hk], by simp [makesStatement, hf, hk]⟩
    · exact ⟨[], by simp [statementStep, hf, hk], by simp [makesStatement, hf, hk]⟩
    · obtain ⟨args, h⟩ := statementStep_call fuel hf hk out b
      exact ⟨_, h, by simp [makesStatement, hf, hk]⟩
    · -- a variable makes its declaration when it is local and named
      by_cases hd : (!v.isGlobal && !v.name.isEmpty) = true
      · exact ⟨[v.declaration], by simp [statementStep, hf, hk, hd],
          by simp [makesStatement, hf, hk, hd]⟩
      · exact ⟨[], by simp [statementStep, hf, hk, hd], by simp [makesStatement, hf, hk, hd]⟩

/-- The statements of a list of ids: one for each id that makes one, with the declaration of
every local named variable among them. -/
theorem foldl_statementStep (fuel : Nat) (l : List String) :
    ∀ (out : List String) (b : Built), ∃ o,
      (l.foldl (statementStep g fuel) (out, b)).1 = out ++ o ∧ o.length = l.countP g.makesStatement ∧
      ∀ x ∈ l, ∀ n d, g.find? x = some n → n.kind = .variable d → d.isGlobal = false →
        d.name ≠ "" → d.declaration ∈ o := by
  induction l with
  | nil => exact fun out b => ⟨[], by simp, rfl, fun _ h => absurd h List.not_mem_nil⟩
  | cons id l ih =>
    intro out b
    obtain ⟨extra, hextra, hlen⟩ := statementStep_fst (g := g) fuel out b id
    obtain ⟨o, ho, holen, hdecl⟩ := ih (statementStep g fuel (out, b) id).1
      (statementStep g fuel (out, b) id).2
    refine ⟨extra ++ o, ?_, ?_, ?_⟩
    · rw [List.foldl_cons, ho, hextra, List.append_assoc]
    · rw [List.length_append, hlen, holen, List.countP_cons]
      omega
    · intro x hx n d hn hk hloc hname
      rcases List.mem_cons.mp hx with rfl | hx
      · -- the variable's own step appends its declaration
        have h := statementStep_declare fuel hn hk hloc hname out b
        rw [hextra] at h
        rw [List.append_cancel_left h]
        exact List.mem_append_left _ (List.mem_singleton_self _)
      · exact List.mem_append_right _ (hdecl x hx n d hn hk hloc hname)

/-- Splitting the ids at a call: its statement follows the statements of the ids before it,
which declare every local named variable among those ids. -/
theorem statements_split (fuel : Nat) (b : Built) (pre post : List String) {p : Node} {c : Call}
    (hp : g.find? p.id = some p) (hk : p.kind = .call c) :
    ∃ before args after, (statements g fuel (pre ++ p.id :: post) b).1 =
        before ++ (c.callName ++ "(" ++ ", ".intercalate args ++ ")" ++ ";") :: after ∧
      before.length = pre.countP g.makesStatement ∧
      ∀ x ∈ pre, ∀ n d, g.find? x = some n → n.kind = .variable d → d.isGlobal = false →
        d.name ≠ "" → d.declaration ∈ before := by
  obtain ⟨before, hbefore, hlen, hdecl⟩ := foldl_statementStep (g := g) fuel pre [] b
  set st := pre.foldl (statementStep g fuel) ([], b) with hst
  obtain ⟨args, hargs⟩ := statementStep_call fuel hp hk st.1 st.2
  obtain ⟨after, hafter, -, -⟩ := foldl_statementStep (g := g) fuel post
    (statementStep g fuel (st.1, st.2) p.id).1 (statementStep g fuel (st.1, st.2) p.id).2
  refine ⟨before, args, after, ?_, hlen, hdecl⟩
  rw [statements, List.foldl_append, ← hst, List.foldl_cons]
  rw [hafter, hargs, hbefore]
  simp

end Compiler

namespace Graph

open Compiler

variable {g : Graph}

variable (g) in
/-- Every local named variable that a call of the procedure `ids` reads within the procedure
is declared before the call's own statement: splitting `ids` at the call, the call's statement,
its call name applied to its arguments followed by `;`, comes right after the statements of the
ids before it, and the variable's declaration is one of those. -/
def DeclaresBeforeReads (ids out : List String) : Prop :=
  ∀ (p : Node) (c : Call) (v : Node) (d : Variable), g.find? p.id = some p → p.kind = .call c →
    v.kind = .variable d → d.isGlobal = false → d.name ≠ "" → g.ReadsWithin ids p v →
    ∀ pre post, ids = pre ++ p.id :: post →
      ∃ before args after,
        out = before ++ (c.callName ++ "(" ++ ", ".intercalate args ++ ")" ++ ";") :: after ∧
        before.length = pre.countP g.makesStatement ∧ d.declaration ∈ before

/-- The statements of ids ordered after the ids that feed them, those they feed back apart,
declare every variable before the calls that read it within the ids. -/
theorem statements_declaresBeforeReads {ids : List String} (hff : g.FeedsFirstOffCycles ids ids)
    (fuel : Nat) (b : Built) : g.DeclaresBeforeReads ids (statements g fuel ids b).1 := by
  intro p c v d hp hk hvk hloc hname hread pre post hsplit
  have hv : v.id ∈ pre := hread.before hff pre post hsplit
  obtain ⟨before, args, after, hout, hlen, hdecl⟩ := statements_split fuel b pre post hp hk
  rw [hsplit]
  exact ⟨before, args, after, hout, hlen, hdecl v.id hv v d hread.find? hvk hloc hname⟩

end Graph

/-- The global declaration a node makes: a named global variable's declaration. -/
def Node.globalDeclaration? (n : Node) : Option String :=
  match n.kind with
  | .variable v => if v.isGlobal = true ∧ v.name ≠ "" then some v.declaration else none
  | _ => none

namespace Compiler

open Breadboard.Graph

variable {g : Graph}

/-- Declaring a node adds a named global variable's declaration to the globals. -/
theorem declareStep_fst (acc : List String × Built) (n : Node) :
    (declareStep acc n).1 = acc.1 ++ n.globalDeclaration?.toList := by
  obtain ⟨globals, b⟩ := acc
  unfold declareStep Node.globalDeclaration?
  rcases n.kind with _ | _ | c | v
  · simp
  · simp
  · simp
  · dsimp only
    by_cases hname : v.name = ""
    · simp [hname]
    · by_cases hg : v.isGlobal = true <;> simp [hname, hg]

/-- The globals are the declarations of the named global variables, in id order. -/
theorem declareVariables_globals (g : Graph) :
    (declareVariables g).1 = (byId g).filterMap Node.globalDeclaration? := by
  have hfold : ∀ (l : List Node) (acc : List String × Built),
      (l.foldl declareStep acc).1 = acc.1 ++ l.filterMap Node.globalDeclaration? := by
    intro l
    induction l with
    | nil => simp
    | cons n l ih =>
      intro acc
      rw [List.foldl_cons, ih, declareStep_fst, List.filterMap_cons]
      cases n.globalDeclaration? <;> simp
  rw [declareVariables, hfold]
  rfl

/-- Every named global variable of the graph is declared among the globals. -/
theorem mem_declareVariables_globals {n : Node} {d : Variable} (hn : n ∈ g.nodes)
    (hk : n.kind = .variable d) (hg : d.isGlobal = true) (hname : d.name ≠ "") :
    d.declaration ∈ (declareVariables g).1 := by
  have hdecl : n.globalDeclaration? = some d.declaration := by
    simp [Node.globalDeclaration?, hk, hg, hname]
  rw [declareVariables_globals]
  exact List.mem_filterMap.mpr ⟨n, List.mem_mergeSort.mpr hn, hdecl⟩

/-- **Declarations come before reads.** For every graph, every named global variable is
declared among the globals; and in `setup` and in `loop`, a local named variable that a call
reads, directly or through calls it reads, is declared by a statement of an id before the
call, ahead of the call's own statement, provided the variable and every call on the way are
ids of that same procedure and lie on no data cycle among them. -/
theorem compile_declares_before_reads (g : Graph) (o : Options) :
    (∀ n ∈ g.nodes, ∀ d, n.kind = .variable d → d.isGlobal = true → d.name ≠ "" →
      d.declaration ∈ (compile g o).globals) ∧
    g.DeclaresBeforeReads (((g.entryPoint .setup "setup").map g.procedure).getD [])
      (compile g o).setup ∧
    g.DeclaresBeforeReads (((g.entryPoint .loop "loop").map g.procedure).getD [])
      (compile g o).loop := by
  refine ⟨fun n hn d hk hg hname => mem_declareVariables_globals hn hk hg hname, ?_, ?_⟩
  · exact statements_declaresBeforeReads (feedsFirstOffCycles_procedureIds _) _ _
  · exact statements_declaresBeforeReads (feedsFirstOffCycles_procedureIds _) _ _

/-- A local variable `level` of type `int`, initially 5. -/
def levelNode : Node where
  id := "v"
  outputs := [⟨"value", "value", .int, none, false⟩]
  kind := .variable ⟨"level", .int, some "5", false⟩

/-- A call `show` with one `int` input. -/
def showNode : Node where
  id := "p"
  inputs := [⟨"input-0", "input-0", .int, none, true⟩]
  kind := .call ⟨"show", "Display", none⟩

/-- `loop` runs `level`'s declaration and then `show`, which reads `level`. -/
def levelGraph : Graph where
  nodes := [Node.loopEntry, showNode, levelNode]
  edges := [Edge.exec "loop" "v", Edge.exec "v" "p", ⟨"v", "value", "p", "input-0"⟩]

/-- In `levelGraph`, `show` reads `level` within `loop`, so `level`'s declaration comes
before `show`'s statement. -/
theorem compile_declares_before_reads_level :
    levelGraph.find? showNode.id = some showNode ∧
    levelGraph.ReadsWithin (((levelGraph.entryPoint .loop "loop").map levelGraph.procedure).getD [])
      showNode levelNode ∧
    ∃ before args after, (compile levelGraph).loop =
        before ++ ("show" ++ "(" ++ ", ".intercalate args ++ ")" ++ ";") :: after ∧
      before.length = ["v"].countP levelGraph.makesStatement ∧
      (⟨"level", .int, some "5", false⟩ : Variable).declaration ∈ before := by
  have hloop : ((levelGraph.entryPoint .loop "loop").map levelGraph.procedure).getD [] =
      ["v", "p"] := by decide
  have hp : levelGraph.find? showNode.id = some showNode := by decide
  -- the one data edge runs from `level` to `show`
  have hrank : ∀ a b, levelGraph.Feeds a b → (if a = "p" then 1 else 0) < (if b = "p" then 1 else 0) := by
    intro a b hab
    simp only [Feeds, producers, levelGraph, Edge.exec, List.mem_filterMap, List.mem_cons,
      List.not_mem_nil, or_false] at hab
    obtain ⟨e, he, hsome⟩ := hab
    rcases he with rfl | rfl | rfl <;> simp [execIn] at hsome
    obtain ⟨rfl, rfl⟩ := hsome
    decide
  have hread : levelGraph.ReadsWithin ["v", "p"] showNode levelNode :=
    .direct (p := ⟨"input-0", "input-0", .int, none, true⟩) (by decide) (by decide) (by decide)
      (by decide) (offCycles_of_rank _ hrank _ _)
  refine ⟨hp, hloop ▸ hread, ?_⟩
  exact (compile_declares_before_reads levelGraph {}).2.2 showNode _ levelNode _ hp rfl rfl rfl
    (by decide) (hloop ▸ hread) ["v"] [] hloop

/-- `loop` runs `show`, which reads `level` through a data edge, but no execution edge reaches
`level`. -/
def dataOnlyGraph : Graph where
  nodes := [Node.loopEntry, showNode, levelNode]
  edges := [Edge.exec "loop" "p", ⟨"v", "value", "p", "input-0"⟩]

/-- A local variable that no execution edge reaches is read but never declared: `loop` reads
`level` and declares nothing, and neither do the globals. -/
theorem compile_reads_undeclared_local :
    (compile dataOnlyGraph).loop = ["show(level);"] ∧ (compile dataOnlyGraph).setup = [] ∧
      (compile dataOnlyGraph).globals = [] := by
  have hby : byId dataOnlyGraph = dataOnlyGraph.nodes :=
    byId_eq_of_perm_of_sorted (by decide) (List.Perm.refl _) (by decide)
  rw [compile_stages]
  simp only [declareVariables, hby]
  decide

end Compiler

end Breadboard
