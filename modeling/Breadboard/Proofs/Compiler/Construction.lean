import Mathlib
import Breadboard.Proofs.Compiler.Trees

/-!
# What compiling builds

Every call that compiling builds is a call node of the graph, its include is noted when it is
built, and each of its arguments is read from the first edge into the port. This file states
that as an invariant of the traced run (`Compiler.Trace.Faithful`) and proves that every phase
keeps it:

* `ArgFits g n p a`: argument `a` fills input port `p` of call node `n` as compiling fills it:
  text is the port's fallback when no edge comes into the port, and a call is a call of the node
  that the first edge into the port comes from;
* `Trace.Faithful g t`: every logged call is a call node of `g`, the includes are the
  first-seen includes of the logged calls, and every call in a bound tree is logged and fills
  each of its ports;
* `Builds g t xs t'`: a phase taking `t` to `t'` keeps the invariant, only adds to the log, and
  the calls `xs` it builds are logged and fill their ports.

Main statements:

* `traceCompile_faithful`: the whole traced run is faithful, every call in an emitted statement
  or in the expression table is logged and fills its ports, and the call nodes of `setup` and
  `loop`, and those outside both that feed a data edge, are logged;
* `compile_includes_first_built`: the includes of a compiled sketch are the includes of the calls
  built, trimmed, without blanks, in the order their first carrier was built, so every call that
  is emitted has its include there;
* `compile_unfed_port_reads_fallback`: a port into which only execution edges come, and which is
  not named `exec-in`, gets its literal or zero value in every call emitted;
  `compile_reads_through_execution_edge` shows that the name matters: a port named `exec-in`
  reads the call of the node its execution edge comes from.
-/

namespace Breadboard

/-- The include a call needs: its directive trimmed, unless that is blank. -/
def Call.include? (c : Call) : Option String :=
  c.directive.bind fun d => if (Text.trim d).isEmpty then none else some (Text.trim d)

namespace Compiler

open Breadboard.Graph

/-! ## Noting includes keeps the first-seen order -/

/-- Noting a call's include appends it unless it is blank or already noted. -/
theorem includes_noteInclude (b : Built) (c : Call) :
    (b.noteInclude c).includes =
      match c.include? with
      | some x => if x ∈ b.includes then b.includes else b.includes ++ [x]
      | none => b.includes := by
  unfold Built.noteInclude Call.include?
  rcases c.directive with _ | d
  · rfl
  · dsimp only [Option.bind]
    by_cases he : (Text.trim d).isEmpty
    · simp [he]
    · by_cases hm : Text.trim d ∈ b.includes <;> simp [he, hm]

/-- Keeping first occurrences of a list extended by one element. -/
theorem eraseDups_append_singleton {α : Type} [BEq α] [LawfulBEq α] (l : List α) (x : α) :
    (l ++ [x]).eraseDups = if x ∈ l then l.eraseDups else l.eraseDups ++ [x] := by
  rw [List.eraseDups_append]
  by_cases h : x ∈ l <;> simp [h, List.removeAll, List.eraseDups_cons]

theorem nodup_eraseDups {α : Type} [BEq α] [LawfulBEq α] (l : List α) : l.eraseDups.Nodup := by
  induction l using List.reverseRecOn with
  | nil => exact List.nodup_nil
  | append_singleton l x ih =>
    rw [eraseDups_append_singleton]
    split
    · exact ih
    · rename_i hx
      rw [List.nodup_append]
      exact ⟨ih, List.nodup_singleton x, fun a ha b hb => by
        rw [List.mem_singleton.mp hb]
        rintro rfl
        exact hx (List.mem_eraseDups.mp ha)⟩

/-! ## Arguments and calls that fit the graph -/

/-- Argument `a` fills input port `p` of call node `n` as compiling fills it: text is the port's
fallback when no edge comes into the port, and a call is one of the node that the first edge
into the port comes from. -/
def ArgFits (g : Graph) (n : Node) (p : Port) : Expr → Prop
  | .text s => g.feed? n.id p.id = none → s = fallbackArgument p
  | .call s _ _ => ∃ e, g.feed? n.id p.id = some e ∧ s.id = e.source

/-- A built call has one argument per input port of its node, each filling its port. -/
def CallFits (g : Graph) (x : Node × Call × List Expr) : Prop :=
  List.Forall₂ (ArgFits g x.1) x.1.inputs x.2.2

theorem ArgFits.text_of_feed {g : Graph} {n : Node} {p : Port} {e : Edge}
    (hfeed : g.feed? n.id p.id = some e) (s : String) : ArgFits g n p (.text s) := by
  intro h
  rw [hfeed] at h
  cases h

/-! ## The invariant -/

/-- The invariant of a traced run. -/
structure Trace.Faithful (g : Graph) (t : Trace) : Prop where
  /-- Every logged call is a call node of the graph. -/
  built_calls : ∀ x ∈ t.built, x.1 ∈ g.nodes ∧ x.1.kind = .call x.2
  /-- The includes are the first-seen includes of the logged calls. -/
  includes_eq : t.includes = (t.built.filterMap fun x => x.2.include?).eraseDups
  /-- A tree bound to an output of a node is text, or a call of a node with that id. -/
  bound_root : ∀ kv ∈ t.bound, ∀ s c args, kv.2 = .call s c args → s.id = kv.1.1
  /-- Every call in a bound tree is logged and fills its ports. -/
  bound_calls : ∀ kv ∈ t.bound, ∀ x ∈ kv.2.calls, (x.1, x.2.1) ∈ t.built ∧ CallFits g x

/-- A phase taking `t` to `t'` keeps the invariant and only adds to the log, and every call it
builds (the list `xs`) is logged and fills its ports. -/
structure Builds (g : Graph) (t : Trace) (xs : List (Node × Call × List Expr)) (t' : Trace) :
    Prop where
  faithful : t'.Faithful g
  grows : t.built <+: t'.built
  calls : ∀ x ∈ xs, (x.1, x.2.1) ∈ t'.built ∧ CallFits g x

variable {g : Graph} {t : Trace}

namespace Trace

theorem mem_of_lookup {nodeId portId : String} {x : Expr} (hx : t.lookup nodeId portId = some x) :
    ((nodeId, portId), x) ∈ t.bound := by
  unfold lookup at hx
  generalize t.bound = l at hx
  induction l with
  | nil => cases hx
  | cons kv l ih =>
    obtain ⟨k, e⟩ := kv
    simp only [List.lookup_cons] at hx
    by_cases hk : (nodeId, portId) = k
    · subst hk
      simp only [BEq.rfl, Option.some.injEq] at hx
      subst hx
      exact List.mem_cons_self ..
    · have hb : ((nodeId, portId) == k) = false := beq_eq_false_iff_ne.mpr hk
      simp only [hb] at hx
      exact List.mem_cons_of_mem _ (ih hx)

/-- The state after declaring the variables binds only names, and logs nothing. -/
theorem faithful_ofBuilt {b : Built} (hb : b.includes = []) : (ofBuilt b).Faithful g where
  built_calls := by simp [ofBuilt]
  includes_eq := by simpa [ofBuilt] using hb
  bound_root := by
    intro kv hkv s c args hs
    obtain ⟨kv', -, rfl⟩ := List.mem_map.mp hkv
    cases hs
  bound_calls := by
    intro kv hkv x hx
    obtain ⟨kv', -, rfl⟩ := List.mem_map.mp hkv
    simp at hx

theorem Faithful.note (hf : t.Faithful g) {n : Node} {c : Call} (hn : n ∈ g.nodes)
    (hk : n.kind = .call c) : (t.note n c).Faithful g where
  built_calls := by
    intro x hx
    rcases List.mem_append.mp hx with hx | hx
    · exact hf.built_calls x hx
    · rw [List.mem_singleton.mp hx]
      exact ⟨hn, hk⟩
  includes_eq := by
    show (t.toBuilt.noteInclude c).includes = _
    rw [includes_noteInclude, built_note, List.filterMap_append, includes_toBuilt]
    rcases hc : c.include? with _ | x
    · simp [hc, hf.includes_eq]
    · simp only [List.filterMap_cons, List.filterMap_nil, hc]
      rw [eraseDups_append_singleton, hf.includes_eq]
      simp only [List.mem_eraseDups]
  bound_root := hf.bound_root
  bound_calls := fun kv hkv x hx =>
    ⟨List.mem_append_left _ (hf.bound_calls kv hkv x hx).1, (hf.bound_calls kv hkv x hx).2⟩

theorem Faithful.bind (hf : t.Faithful g) {nodeId portId : String} {e : Expr}
    (hroot : ∀ s c args, e = .call s c args → s.id = nodeId)
    (he : ∀ x ∈ e.calls, (x.1, x.2.1) ∈ t.built ∧ CallFits g x) :
    (t.bind nodeId portId e).Faithful g where
  built_calls := hf.built_calls
  includes_eq := hf.includes_eq
  bound_root := by
    intro kv hkv s c args hs
    rcases List.mem_cons.mp hkv with rfl | hkv
    · exact hroot s c args hs
    · exact hf.bound_root kv (List.mem_of_mem_filter hkv) s c args hs
  bound_calls := by
    intro kv hkv x hx
    rcases List.mem_cons.mp hkv with rfl | hkv
    · exact he x hx
    · exact hf.bound_calls kv (List.mem_of_mem_filter hkv) x hx

end Trace

namespace Builds

variable {xs ys : List (Node × Call × List Expr)} {t' t'' : Trace}

/-- A phase that builds nothing. -/
theorem nil (hf : t.Faithful g) : Builds g t [] t :=
  ⟨hf, List.prefix_refl _, fun _ hx => absurd hx List.not_mem_nil⟩

theorem trans (h₁ : Builds g t xs t') (h₂ : Builds g t' ys t'') :
    Builds g t (xs ++ ys) t'' where
  faithful := h₂.faithful
  grows := h₁.grows.trans h₂.grows
  calls := by
    intro x hx
    rcases List.mem_append.mp hx with hx | hx
    · exact ⟨h₂.grows.subset (h₁.calls x hx).1, (h₁.calls x hx).2⟩
    · exact h₂.calls x hx

/-- Reading a bound tree builds nothing new: its calls are already logged. -/
theorem of_bound (hf : t.Faithful g) {kv : (String × String) × Expr} (hkv : kv ∈ t.bound) :
    Builds g t kv.2.calls t :=
  ⟨hf, List.prefix_refl _, hf.bound_calls kv hkv⟩

end Builds

/-! ## Each phase builds faithfully -/

section Phases

variable (node : Node) (path : List String)
  {rebuild : Node → Call → Trace → Option (Expr × Trace)}

/-- What a rebuild promises: from a faithful state, a call node of the graph is rebuilt to a call
of that node, building faithfully. -/
def RebuildsFaithfully (g : Graph) (rebuild : Node → Call → Trace → Option (Expr × Trace)) :
    Prop :=
  ∀ src sc t r, t.Faithful g → src ∈ g.nodes → src.kind = .call sc →
    rebuild src sc t = some r → Builds g t r.1.calls r.2 ∧ ∃ args, r.1 = .call src sc args

theorem argumentTree_builds (hre : RebuildsFaithfully g rebuild) (hf : t.Faithful g) (p : Port) :
    Builds g t (argumentTree g node path rebuild t p).1.calls
        (argumentTree g node path rebuild t p).2 ∧
      ArgFits g node p (argumentTree g node path rebuild t p).1 := by
  unfold argumentTree
  rcases hfeed : g.feed? node.id p.id with _ | e
  · exact ⟨Builds.nil hf, fun _ => rfl⟩
  · dsimp only
    rcases hl : t.lookup e.source e.sourceHandle with _ | x
    · dsimp only
      rcases hfind : g.find? e.source with _ | src
      · exact ⟨Builds.nil hf, ArgFits.text_of_feed hfeed _⟩
      · dsimp only
        rcases hk : src.kind with _ | _ | sc | v
        · exact ⟨Builds.nil hf, ArgFits.text_of_feed hfeed _⟩
        · exact ⟨Builds.nil hf, ArgFits.text_of_feed hfeed _⟩
        · dsimp only
          split
          · exact ⟨Builds.nil hf, ArgFits.text_of_feed hfeed _⟩
          · rcases hr : rebuild src sc t with _ | r
            · exact ⟨Builds.nil hf, ArgFits.text_of_feed hfeed _⟩
            · -- a rebuilt call is a call of the node the edge comes from
              obtain ⟨hb, args, hroot⟩ := hre src sc t r hf (find?_spec hfind).1 hk hr
              refine ⟨hb, ?_⟩
              rw [Option.getD_some, hroot]
              exact ⟨e, hfeed, (find?_spec hfind).2⟩
        · exact ⟨Builds.nil hf, ArgFits.text_of_feed hfeed _⟩
    · -- a bound tree is a call of a node carrying the edge's source id, or text
      have hmem := Trace.mem_of_lookup hl
      refine ⟨Builds.of_bound hf hmem, ?_⟩
      cases x with
      | text s => exact ArgFits.text_of_feed hfeed s
      | call s c args => exact ⟨e, hfeed, hf.bound_root _ hmem s c args rfl⟩

theorem argumentsTree_builds (hre : RebuildsFaithfully g rebuild) :
    ∀ (ps : List Port) (t : Trace), t.Faithful g →
      Builds g t ((argumentsTree g node path rebuild t ps).1.flatMap Expr.calls)
          (argumentsTree g node path rebuild t ps).2 ∧
        List.Forall₂ (ArgFits g node) ps (argumentsTree g node path rebuild t ps).1
  | [], t, hf => ⟨Builds.nil hf, .nil⟩
  | p :: ps, t, hf => by
    obtain ⟨h₁, hfit⟩ := argumentTree_builds node path hre hf p
    obtain ⟨h₂, hfits⟩ := argumentsTree_builds hre ps _ h₁.faithful
    refine ⟨?_, .cons hfit hfits⟩
    rw [argumentsTree, List.flatMap_cons]
    exact h₁.trans h₂

/-- Building a call notes it first, so its own call is logged, and its arguments fill its
ports. -/
theorem callWithTree_builds (hre : RebuildsFaithfully g rebuild) (hf : t.Faithful g) {c : Call}
    (hn : node ∈ g.nodes) (hk : node.kind = .call c) :
    Builds g t (callWithTree g node c path rebuild t).1.calls
        (callWithTree g node c path rebuild t).2 ∧
      ∃ args, (callWithTree g node c path rebuild t).1 = .call node c args := by
  have hnote := hf.note hn hk
  obtain ⟨hb, hfits⟩ := argumentsTree_builds node path hre node.inputs _ hnote
  refine ⟨⟨hb.faithful, (List.prefix_append _ _).trans hb.grows, ?_⟩, _, rfl⟩
  intro x hx
  rw [callWithTree, Expr.calls_call] at hx
  rcases List.mem_cons.mp hx with rfl | hx
  · exact ⟨hb.grows.subset (List.mem_append_right _ (List.mem_singleton_self _)), hfits⟩
  · exact hb.calls x hx

/-- Building a call tree, at any fuel, builds faithfully and gives a call of that node. -/
theorem callTree_builds (g : Graph) :
    ∀ (fuel : Nat) {node : Node} {c : Call} (path : List String) {t : Trace}, t.Faithful g →
      node ∈ g.nodes → node.kind = .call c →
      Builds g t (callTree g fuel node c path t).1.calls (callTree g fuel node c path t).2 ∧
        ∃ args, (callTree g fuel node c path t).1 = .call node c args
  | 0, node, _, path, _, hf, hn, hk =>
    callWithTree_builds node path (fun _ _ _ _ _ _ _ h => by cases h) hf hn hk
  | k + 1, node, _, path, _, hf, hn, hk =>
    callWithTree_builds node path (fun src _ _ _ hf' hn' hk' h => by
      cases h
      exact callTree_builds g k (src.id :: path) hf' hn' hk') hf hn hk

theorem bindOutputs_faithful {n : Node} {e : Expr}
    (hroot : ∀ s c args, e = .call s c args → s.id = n.id) :
    ∀ (ps : List Port) (t : Trace), t.Faithful g →
      (∀ x ∈ e.calls, (x.1, x.2.1) ∈ t.built ∧ CallFits g x) →
      (ps.foldl (fun t p => if p.type != .void && g.isRead n.id p.id then t.bind n.id p.id e
        else t) t).Faithful g ∧
      (ps.foldl (fun t p => if p.type != .void && g.isRead n.id p.id then t.bind n.id p.id e
        else t) t).built = t.built
  | [], _, hf, _ => ⟨hf, rfl⟩
  | p :: ps, t, hf, he => by
    rw [List.foldl_cons]
    split
    · exact bindOutputs_faithful hroot ps _ (hf.bind hroot he) he
    · exact bindOutputs_faithful hroot ps _ hf he

variable (fuel : Nat)

/-- The call tree that a statement or an orphan builds for a call node of the graph: built
faithfully, a call of that node, and logged. -/
theorem callTree_rooted {n : Node} {c : Call} (hf : t.Faithful g) (hn : n ∈ g.nodes)
    (hk : n.kind = .call c) :
    Builds g t (callTree g fuel n c [n.id] t).1.calls (callTree g fuel n c [n.id] t).2 ∧
      (∀ s c' args, (callTree g fuel n c [n.id] t).1 = .call s c' args → s.id = n.id) ∧
      (n, c) ∈ (callTree g fuel n c [n.id] t).2.built := by
  obtain ⟨hb, args, hroot⟩ := callTree_builds g fuel [n.id] hf hn hk
  refine ⟨hb, fun s c' args' h => ?_, ?_⟩
  · rw [hroot] at h
    cases h
    rfl
  · -- the root call is the first call of the tree
    have hmem : (n, c, args) ∈ (callTree g fuel n c [n.id] t).1.calls := by
      rw [hroot, Expr.calls_call]
      exact List.mem_cons_self ..
    exact (hb.calls _ hmem).1

/-- One statement step: its new statements build faithfully, and a call node of the procedure
is logged. -/
theorem statementStepTree_builds (hf : t.Faithful g) (ss : List Statement) (id : String) :
    ∃ new, (statementStepTree g fuel (ss, t) id).1 = ss ++ new ∧
      Builds g t (new.flatMap Statement.calls) (statementStepTree g fuel (ss, t) id).2 ∧
      ∀ n c, g.find? id = some n → n.kind = .call c →
        (n, c) ∈ (statementStepTree g fuel (ss, t) id).2.built := by
  unfold statementStepTree
  rcases hfind : g.find? id with _ | n
  · exact ⟨[], by simp, Builds.nil hf, fun _ _ h => by cases h⟩
  · dsimp only
    rcases hk : n.kind with _ | _ | c | v
    case call =>
      -- build the call tree, then bind it to the outputs that a data edge reads
      obtain ⟨hb, hroot, hlog⟩ := callTree_rooted fuel hf (find?_spec hfind).1 hk
      obtain ⟨hbf, hbuilt⟩ := bindOutputs_faithful hroot n.outputs _ hb.faithful hb.calls
      refine ⟨[.call (callTree g fuel n c [n.id] t).1], rfl,
        ⟨hbf, hbuilt ▸ hb.grows, ?_⟩, ?_⟩
      · intro x hx
        simp only [List.flatMap_cons, List.flatMap_nil, List.append_nil, Statement.calls] at hx
        exact hbuilt ▸ hb.calls x hx
      · intro m c' h hk'
        cases h
        rw [hk] at hk'
        cases hk'
        exact hbuilt ▸ hlog
    case «variable» =>
      dsimp only
      split
      · exact ⟨[.declare v.declaration], rfl,
          ⟨hf, List.prefix_refl _, by simp [Statement.calls]⟩,
          fun _ c h hk' => by cases h; rw [hk] at hk'; cases hk'⟩
      · exact ⟨[], by simp, Builds.nil hf,
          fun _ c h hk' => by cases h; rw [hk] at hk'; cases hk'⟩
    -- an entry point makes no statement
    all_goals exact ⟨[], by simp, Builds.nil hf,
      fun _ c h hk' => by cases h; rw [hk] at hk'; cases hk'⟩

/-- A run of statement steps builds faithfully and logs every call node of its ids. -/
theorem statementsTree_builds :
    ∀ (ids : List String) (ss : List Statement) (t : Trace), t.Faithful g →
      ∃ new, (ids.foldl (statementStepTree g fuel) (ss, t)).1 = ss ++ new ∧
        Builds g t (new.flatMap Statement.calls)
          (ids.foldl (statementStepTree g fuel) (ss, t)).2 ∧
        ∀ id ∈ ids, ∀ n c, g.find? id = some n → n.kind = .call c →
          (n, c) ∈ (ids.foldl (statementStepTree g fuel) (ss, t)).2.built
  | [], ss, t, hf => ⟨[], by simp, Builds.nil hf, fun _ h => absurd h List.not_mem_nil⟩
  | id :: ids, ss, t, hf => by
    obtain ⟨new₁, hout₁, hb₁, hlog₁⟩ := statementStepTree_builds fuel hf ss id
    obtain ⟨new₂, hout₂, hb₂, hlog₂⟩ := statementsTree_builds ids
      (statementStepTree g fuel (ss, t) id).1 (statementStepTree g fuel (ss, t) id).2 hb₁.faithful
    refine ⟨new₁ ++ new₂, ?_, ?_, ?_⟩
    · rw [List.foldl_cons, hout₂, hout₁, List.append_assoc]
    · rw [List.flatMap_append]
      exact hb₁.trans hb₂
    · intro id' hid n c hfind hk
      rcases List.mem_cons.mp hid with rfl | hid
      · exact hb₂.grows.subset (hlog₁ n c hfind hk)
      · exact hlog₂ id' hid n c hfind hk

/-- The orphan pass builds faithfully and logs every call node it covers. -/
theorem orphansTree_builds (setupIds loopIds : List String) :
    ∀ (ns : List Node) (t : Trace), t.Faithful g → (∀ n ∈ ns, n ∈ g.nodes) →
      Builds g t [] (ns.foldl (orphanStepTree g fuel setupIds loopIds) t) ∧
        ∀ n ∈ ns, ∀ c, n.kind = .call c → n.id ∉ setupIds → n.id ∉ loopIds →
          g.feedsData n.id = true →
          (n, c) ∈ (ns.foldl (orphanStepTree g fuel setupIds loopIds) t).built
  | [], t, hf, _ => ⟨Builds.nil hf, fun _ h => absurd h List.not_mem_nil⟩
  | n :: ns, t, hf, hns => by
    have hn := hns n (List.mem_cons_self ..)
    -- one orphan step, then the rest of the pass
    have hstep : Builds g t [] (orphanStepTree g fuel setupIds loopIds t n) ∧
        ∀ c, n.kind = .call c → n.id ∉ setupIds → n.id ∉ loopIds →
          g.feedsData n.id = true →
          (n, c) ∈ (orphanStepTree g fuel setupIds loopIds t n).built := by
      unfold orphanStepTree
      rcases hk : n.kind with _ | _ | c | v
      case call =>
        dsimp only
        split
        · rename_i hcov
          refine ⟨Builds.nil hf, fun c' h hs hl hd => ?_⟩
          simp [hs, hl, hd] at hcov
        · obtain ⟨hb, hroot, hlog⟩ := callTree_rooted fuel hf hn hk
          refine ⟨⟨hb.faithful.bind hroot hb.calls, hb.grows,
            fun _ h => absurd h List.not_mem_nil⟩, fun c' h _ _ _ => ?_⟩
          cases h
          exact hlog
      -- a node that is no call binds nothing
      all_goals exact ⟨Builds.nil hf, fun c h => by cases h⟩
    obtain ⟨hrest, hlog⟩ := orphansTree_builds setupIds loopIds ns _ hstep.1.faithful
      (fun m hm => hns m (List.mem_cons_of_mem n hm))
    refine ⟨hstep.1.trans hrest, fun m hm c hk hs hl hd => ?_⟩
    rw [List.foldl_cons]
    rcases List.mem_cons.mp hm with rfl | hm
    · exact hrest.grows.subset (hstep.2 c hk hs hl hd)
    · exact hlog m hm c hk hs hl hd

end Phases

theorem includes_declareVariables (g : Graph) : (declareVariables g).2.includes = [] := by
  unfold declareVariables
  apply List.foldlRecOn (motive := fun (acc : List String × Built) => acc.2.includes = [])
  · rfl
  · rintro ⟨globals, b⟩ hb n -
    unfold declareStep
    dsimp only
    rcases n.kind with _ | _ | c | v
    · exact hb
    · exact hb
    · exact hb
    · dsimp only
      split
      · exact hb
      · exact hb

/-- **What compiling builds.** The traced run ends faithful; every call in an emitted statement or
in the expression table is logged and fills its ports from their first edges; and every call node
of `setup` and of `loop`, and every call node outside both that feeds a data edge, is logged. -/
theorem traceCompile_faithful (g : Graph) :
    (traceCompile g).trace.Faithful g ∧
    (∀ x ∈ (traceCompile g).emitted,
      (x.1, x.2.1) ∈ (traceCompile g).trace.built ∧ CallFits g x) ∧
    (∀ id ∈ ((g.entryPoint .setup "setup").map g.procedure).getD [] ++
        ((g.entryPoint .loop "loop").map g.procedure).getD [],
      ∀ n c, g.find? id = some n → n.kind = .call c →
        (n, c) ∈ (traceCompile g).trace.built) ∧
    (∀ n ∈ g.nodes, ∀ c, n.kind = .call c →
      n.id ∉ ((g.entryPoint .setup "setup").map g.procedure).getD [] →
      n.id ∉ ((g.entryPoint .loop "loop").map g.procedure).getD [] → g.feedsData n.id = true →
      (n, c) ∈ (traceCompile g).trace.built) := by
  have h₀ : (Trace.ofBuilt (declareVariables g).2).Faithful g :=
    Trace.faithful_ofBuilt (includes_declareVariables g)
  obtain ⟨setup, hs, hb₁, hlog₁⟩ := statementsTree_builds (g.nodes.length + 1)
    (((g.entryPoint .setup "setup").map g.procedure).getD []) [] _ h₀
  obtain ⟨loop, hl, hb₂, hlog₂⟩ := statementsTree_builds (g.nodes.length + 1)
    (((g.entryPoint .loop "loop").map g.procedure).getD []) [] _ hb₁.faithful
  obtain ⟨hb₃, hlog₃⟩ := orphansTree_builds (g.nodes.length + 1)
    (((g.entryPoint .setup "setup").map g.procedure).getD [])
    (((g.entryPoint .loop "loop").map g.procedure).getD []) (byId g) _ hb₂.faithful
    (fun n hn => List.mem_mergeSort.mp hn)
  have hall := (hb₁.trans hb₂).trans hb₃
  simp only [List.nil_append] at hs hl
  refine ⟨hb₃.faithful, fun x hx => ?_, fun id hid n c hfind hk => ?_,
    fun n hn => hlog₃ n (List.mem_mergeSort.mpr hn)⟩
  · rw [Traced.emitted, List.mem_append] at hx
    rcases hx with hx | hx
    · -- a call of a statement of `setup` or `loop`
      have hx' : x ∈ (setup.flatMap Statement.calls ++ loop.flatMap Statement.calls) ++ [] := by
        simpa [traceCompile, statementsTree, hs, hl, List.flatMap_append] using hx
      exact hall.calls x hx'
    · -- a call of a tree of the expression table
      obtain ⟨kv, hkv, hx⟩ := List.mem_flatMap.mp hx
      exact hb₃.faithful.bound_calls kv hkv x hx
  · rcases List.mem_append.mp hid with hid | hid
    · exact (hb₂.grows.trans hb₃.grows).subset (hlog₁ id hid n c hfind hk)
    · exact hb₃.grows.subset (hlog₂ id hid n c hfind hk)

/-! ## Includes -/

/-- **The includes of a compiled sketch are those of the calls built, first-seen.** They are the
trimmed, non-blank includes of the calls that compiling builds, each kept where a call carrying
it was first built; so none is repeated, and each is the include of a call node of the graph.
The calls built take in every call node of `setup` and of `loop`, every call node outside both
that feeds a data edge, and every call in an emitted statement or in the expression table (a
rebuilt upstream call included), so each of those has its include among them. -/
theorem compile_includes_first_built (g : Graph) (o : Options) :
    (compile g o).includes =
      ((traceCompile g).trace.built.filterMap fun x => x.2.include?).eraseDups ∧
    (compile g o).includes.Nodup ∧
    (∀ i ∈ (compile g o).includes,
      ∃ n ∈ g.nodes, ∃ c, n.kind = .call c ∧ c.include? = some i) ∧
    (∀ x ∈ (traceCompile g).trace.built, ∀ i, x.2.include? = some i →
      i ∈ (compile g o).includes) ∧
    (∀ id ∈ ((g.entryPoint .setup "setup").map g.procedure).getD [] ++
        ((g.entryPoint .loop "loop").map g.procedure).getD [],
      ∀ n c, g.find? id = some n → n.kind = .call c →
        (n, c) ∈ (traceCompile g).trace.built) ∧
    (∀ n ∈ g.nodes, ∀ c, n.kind = .call c →
      n.id ∉ ((g.entryPoint .setup "setup").map g.procedure).getD [] →
      n.id ∉ ((g.entryPoint .loop "loop").map g.procedure).getD [] → g.feedsData n.id = true →
      (n, c) ∈ (traceCompile g).trace.built) ∧
    (compile g o).setup = (traceCompile g).setup.map Statement.render ∧
    (compile g o).loop = (traceCompile g).loop.map Statement.render ∧
    (compile g o).expressions = (traceCompile g).trace.toBuilt.bound ∧
    (∀ x ∈ (traceCompile g).emitted, (x.1, x.2.1) ∈ (traceCompile g).trace.built ∧
      ∀ i, x.2.1.include? = some i → i ∈ (compile g o).includes) := by
  obtain ⟨hinc, hsetup, hloop, hexpr⟩ := compile_eq_traceCompile g o
  obtain ⟨hf, hemit, hproc, horph⟩ := traceCompile_faithful g
  have hincludes := hinc.trans hf.includes_eq
  -- every logged call has its include among the includes
  have hmem : ∀ x ∈ (traceCompile g).trace.built, ∀ i, x.2.include? = some i →
      i ∈ (compile g o).includes := by
    intro x hx i hi
    rw [hincludes, List.mem_eraseDups]
    exact List.mem_filterMap.mpr ⟨x, hx, hi⟩
  refine ⟨hincludes, ?_, fun i hi => ?_, hmem, hproc, horph, hsetup, hloop, hexpr,
    fun x hx => ⟨(hemit x hx).1, hmem _ (hemit x hx).1⟩⟩
  · rw [hincludes]
    exact nodup_eraseDups _
  · rw [hincludes, List.mem_eraseDups] at hi
    obtain ⟨x, hx, hxi⟩ := List.mem_filterMap.mp hi
    obtain ⟨hn, hk⟩ := hf.built_calls x hx
    exact ⟨x.1, hn, x.2, hk, hxi⟩

/-- Two calls of `Servo.write` around one of `Serial.print`, run from `setup`, with the nodes in
id order. -/
def servoTwiceGraph : Graph where
  nodes := [{ id := "a", kind := .call ⟨"Servo.write", "Servo", some "  #include <Servo.h>"⟩ },
    { id := "b", kind := .call ⟨"Serial.print", "Serial", none⟩ },
    { id := "c", kind := .call ⟨"Servo.write", "Servo", some "#include <Servo.h>\n"⟩ },
    Node.setupEntry]
  edges := [Edge.exec "setup" "a", Edge.exec "a" "b", Edge.exec "b" "c"]

/-- The include of `Servo.write` is noted once, trimmed; `Serial.print` needs none. -/
example : (compile servoTwiceGraph).includes = ["#include <Servo.h>"] := by
  have hby : byId servoTwiceGraph = servoTwiceGraph.nodes :=
    byId_eq_of_perm_of_sorted (by decide) (List.Perm.refl _) (by decide)
  rw [compile_stages]
  simp only [declareVariables, hby]
  decide

/-! ## Ports that no edge feeds -/

/-- A port into which only execution edges come, and which is not named `exec-in`, is fed by no
edge: an execution edge always arrives at `exec-in`. -/
theorem feed?_eq_none_of_execution {g : Graph} {n : Node} {p : Port}
    (hexec : ∀ e ∈ g.edges, e.target = n.id → e.targetHandle = p.id →
      e.kind = .execution ∧ p.id ≠ execIn) :
    g.feed? n.id p.id = none := by
  rcases hfeed : g.feed? n.id p.id with _ | e
  · rfl
  · have hte := List.find?_some hfeed
    simp only [Bool.and_eq_true, beq_iff_eq] at hte
    obtain ⟨hk, hp⟩ := hexec e (List.mem_of_find?_eq_some hfeed) hte.1 hte.2
    unfold Edge.kind at hk
    split at hk
    · rename_i h
      exact absurd (hte.2 ▸ h.2) hp
    · cases hk

/-- **No argument is read through an execution edge, when the port is not named `exec-in`.**
Take an input port `p` of a call node `n` such that every edge into it is an execution edge and
`p` is not named `exec-in` (or no edge comes into it at all). Every call of `n` in an emitted
statement or in the expression table has one argument per input port of `n`, and the one for `p`
is `p`'s literal, or the zero value of its type when the literal is missing or empty. -/
theorem compile_unfed_port_reads_fallback (g : Graph) (o : Options) (n : Node) (p : Port)
    (hexec : ∀ e ∈ g.edges, e.target = n.id → e.targetHandle = p.id →
      e.kind = .execution ∧ p.id ≠ execIn) :
    (compile g o).setup = (traceCompile g).setup.map Statement.render ∧
    (compile g o).loop = (traceCompile g).loop.map Statement.render ∧
    (compile g o).expressions = (traceCompile g).trace.toBuilt.bound ∧
    ∀ x ∈ (traceCompile g).emitted, x.1 = n →
      x.2.2.length = n.inputs.length ∧
      ∀ a, (p, a) ∈ n.inputs.zip x.2.2 → a = .text (fallbackArgument p) := by
  obtain ⟨-, hsetup, hloop, hexpr⟩ := compile_eq_traceCompile g o
  have hfeed := feed?_eq_none_of_execution hexec
  refine ⟨hsetup, hloop, hexpr, ?_⟩
  rintro ⟨m, c, args⟩ hx rfl
  -- the call fills each port from its first edge, and nothing comes into `p`
  have hfit : CallFits g (m, c, args) := ((traceCompile_faithful g).2.1 _ hx).2
  obtain ⟨hlen, hzip⟩ := List.forall₂_iff_zip.mp hfit
  refine ⟨hlen.symm, fun a ha => ?_⟩
  have harg := hzip ha
  cases a with
  | text s => rw [harg hfeed]
  | call s _ _ =>
    obtain ⟨e, he, -⟩ := harg
    rw [hfeed] at he
    cases he

/-- A call `f` from `setup`, then by one execution edge a call `g` of one input port `x`. -/
def execThenCallGraph : Graph where
  nodes := [Node.setupEntry, Node.loopEntry, { id := "f", kind := .call ⟨"f", "", none⟩ },
    { id := "g", inputs := [⟨"x", "x", .int, none, false⟩], kind := .call ⟨"g", "", none⟩ }]
  edges := [Edge.exec "setup" "f", Edge.exec "f" "g"]

theorem compile_unfed_port_reads_fallback_execThenCall :
    (∀ e ∈ execThenCallGraph.edges, e.target = "g" → e.targetHandle = "x" →
      e.kind = .execution ∧ "x" ≠ execIn) ∧
    (compile execThenCallGraph).setup = ["f();", "g(0);"] ∧
    ((compile execThenCallGraph).setup =
        (traceCompile execThenCallGraph).setup.map Statement.render ∧
      (compile execThenCallGraph).loop =
        (traceCompile execThenCallGraph).loop.map Statement.render ∧
      (compile execThenCallGraph).expressions =
        (traceCompile execThenCallGraph).trace.toBuilt.bound ∧
      ∀ x ∈ (traceCompile execThenCallGraph).emitted, x.1 = execThenCallGraph.nodes[3] →
        x.2.2.length = execThenCallGraph.nodes[3].inputs.length ∧
        ∀ a, (⟨"x", "x", .int, none, false⟩, a) ∈
            execThenCallGraph.nodes[3].inputs.zip x.2.2 →
          a = .text (fallbackArgument ⟨"x", "x", .int, none, false⟩)) :=
  have h : ∀ e ∈ execThenCallGraph.edges, e.target = "g" → e.targetHandle = "x" →
      e.kind = .execution ∧ "x" ≠ execIn := by decide
  ⟨h, by decide, compile_unfed_port_reads_fallback execThenCallGraph {} execThenCallGraph.nodes[3]
    ⟨"x", "x", .int, none, false⟩ h⟩

/-- The same graph with `g`'s input port named `exec-in`: only the execution edge from `f` comes
into it, yet `g` is passed a call of `f` instead of the zero value of its port. -/
def execPortGraph : Graph where
  nodes := [{ id := "f", kind := .call ⟨"f", "", none⟩ },
    { id := "g", inputs := [⟨"exec-in", "exec-in", .int, none, false⟩],
      kind := .call ⟨"g", "", none⟩ },
    Node.loopEntry, Node.setupEntry]
  edges := [Edge.exec "setup" "f", Edge.exec "f" "g"]

theorem compile_reads_through_execution_edge :
    (∀ e ∈ execPortGraph.edges, e.target = "g" → e.targetHandle = "exec-in" →
      e.kind = .execution) ∧
    (compile execPortGraph).setup = ["f();", "g(f());"] := by
  -- sorting by id is the one step evaluation cannot run, and the nodes are listed sorted
  have hby : byId execPortGraph = execPortGraph.nodes :=
    byId_eq_of_perm_of_sorted (by decide) (List.Perm.refl _) (by decide)
  refine ⟨by decide, ?_⟩
  rw [compile_stages]
  simp only [declareVariables, hby]
  decide

end Compiler

end Breadboard
