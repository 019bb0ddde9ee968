import Breadboard.Sketch.Connection

/-!
# Checking a connection, one check after another

`Graph.checkEdge` answers whether an edge may be added to a sketch. Its checks run in a fixed
order and the first that fails is the answer: the source node, the target node, the kind of
the edge, the source port, the target port, the types. Node ids and port ids may repeat; each
lookup takes the first node or port that carries the id.

* one lemma per outcome (`checkEdge_source_missing` … `checkEdge_ports_found`), each under the
  checks that come before it;
* `checkEdge_ok_kind`: an accepted edge is accepted with its own kind, so an edge that uses
  `exec-out` or `exec-in` on one side only is a data edge, and passes the port and type checks
  before it is accepted;
* `checkEdge_decided_in_order`: the whole order of decision.
-/

namespace Breadboard.Graph

variable {g : Graph} {e : Edge}

theorem find?_eq_none_iff {id : String} : g.find? id = none ↔ ∀ n ∈ g.nodes, n.id ≠ id := by
  simp [find?, List.find?_eq_none]

theorem find?_isSome_iff {id : String} : (g.find? id).isSome ↔ ∃ n ∈ g.nodes, n.id = id := by
  simp [find?, List.find?_isSome]

/-- Some node carries the id, so the first one is found. -/
theorem exists_find?_of_mem {id : String} (h : ∃ n ∈ g.nodes, n.id = id) :
    ∃ n, g.find? id = some n :=
  Option.isSome_iff_exists.mp (find?_isSome_iff.mpr h)

theorem require_of_find? {id : String} {n : Node} (h : g.find? id = some n) :
    g.require id = .ok n := by
  simp [require, h]

/-! ## One lemma per outcome -/

/-- No node carries the source id: the source is reported missing, whatever else is wrong. -/
theorem checkEdge_source_missing (h : ∀ n ∈ g.nodes, n.id ≠ e.source) :
    g.checkEdge e = .error (.nodeNotFound e.source) := by
  simp [checkEdge, require, find?_eq_none_iff.mpr h, bind, Except.bind]

/-- The source is there and no node carries the target id. -/
theorem checkEdge_target_missing {s : Node} (hs : g.find? e.source = some s)
    (h : ∀ n ∈ g.nodes, n.id ≠ e.target) :
    g.checkEdge e = .error (.nodeNotFound e.target) := by
  simp [checkEdge, require, hs, find?_eq_none_iff.mpr h, bind, Except.bind]

/-- Both nodes are there: an execution edge is accepted without looking at any port. -/
theorem checkEdge_execution {s t : Node} (hs : g.find? e.source = some s)
    (ht : g.find? e.target = some t) (hk : e.kind = .execution) :
    g.checkEdge e = .ok .execution := by
  simp [checkEdge, require_of_find? hs, require_of_find? ht, hk, bind, Except.bind, pure,
    Except.pure]

/-- A data edge between existing nodes whose source has no output port with the handle's id. -/
theorem checkEdge_output_missing {s t : Node} (hs : g.find? e.source = some s)
    (ht : g.find? e.target = some t) (hk : e.kind = .data) (hp : s.output? e.sourceHandle = none) :
    g.checkEdge e = .error (.portNotFound s.id e.sourceHandle true) := by
  simp [checkEdge, require_of_find? hs, require_of_find? ht, hk, hp, bind, Except.bind, throw,
    throwThe, MonadExceptOf.throw]

/-- The source port is there and the target has no input port with the handle's id. -/
theorem checkEdge_input_missing {s t : Node} {sp : Port} (hs : g.find? e.source = some s)
    (ht : g.find? e.target = some t) (hk : e.kind = .data) (hp : s.output? e.sourceHandle = some sp)
    (hq : t.input? e.targetHandle = none) :
    g.checkEdge e = .error (.portNotFound t.id e.targetHandle false) := by
  simp [checkEdge, require_of_find? hs, require_of_find? ht, hk, hp, hq, bind, Except.bind, throw,
    throwThe, MonadExceptOf.throw]

/-- Both ports are there: the types decide. -/
theorem checkEdge_ports_found {s t : Node} {sp tp : Port} (hs : g.find? e.source = some s)
    (ht : g.find? e.target = some t) (hk : e.kind = .data) (hp : s.output? e.sourceHandle = some sp)
    (hq : t.input? e.targetHandle = some tp) :
    g.checkEdge e = if ValueType.isCompatible sp.type tp.type then .ok .data
      else .error (.typeMismatch sp.type tp.type) := by
  simp [checkEdge, require_of_find? hs, require_of_find? ht, hk, hp, hq, bind, Except.bind, throw,
    throwThe, MonadExceptOf.throw, pure, Except.pure]

/-! ## What an accepted edge is -/

/-- Every outcome of a data edge between existing nodes is an error or acceptance as data. -/
theorem checkEdge_data_ok {s t : Node} {k : EdgeKind} (hs : g.find? e.source = some s)
    (ht : g.find? e.target = some t) (hk : e.kind = .data) (h : g.checkEdge e = .ok k) :
    k = .data := by
  cases hp : s.output? e.sourceHandle with
  | none => simp [checkEdge_output_missing hs ht hk hp] at h
  | some sp =>
    cases hq : t.input? e.targetHandle with
    | none => simp [checkEdge_input_missing hs ht hk hp hq] at h
    | some tp =>
      rw [checkEdge_ports_found hs ht hk hp hq] at h
      split at h
      · exact (Except.ok.inj h).symm
      · cases h

/-- An accepted edge is accepted with its own kind. -/
theorem checkEdge_ok_kind {k : EdgeKind} (h : g.checkEdge e = .ok k) : k = e.kind := by
  -- an accepted edge has both its nodes
  obtain ⟨s, hs⟩ : ∃ s, g.find? e.source = some s := by
    cases hs : g.find? e.source with
    | none => simp [checkEdge_source_missing (find?_eq_none_iff.mp hs)] at h
    | some s => exact ⟨s, rfl⟩
  obtain ⟨t, ht⟩ : ∃ t, g.find? e.target = some t := by
    cases ht : g.find? e.target with
    | none => simp [checkEdge_target_missing hs (find?_eq_none_iff.mp ht)] at h
    | some t => exact ⟨t, rfl⟩
  cases hk : e.kind with
  | execution => simpa [checkEdge_execution hs ht hk] using h.symm
  | data => exact checkEdge_data_ok hs ht hk h

/-- **The order of decision.** The source node is checked first, then the target node; an
execution edge between existing nodes is then accepted. A data edge is checked on the first
nodes carrying its ids: the first output port of the source with the source handle's id, then
the first input port of the target with the target handle's id, then the types. An accepted
edge is accepted with its own kind. -/
theorem checkEdge_decided_in_order (g : Graph) (e : Edge) :
    ((∀ n ∈ g.nodes, n.id ≠ e.source) → g.checkEdge e = .error (.nodeNotFound e.source)) ∧
    ((∃ n ∈ g.nodes, n.id = e.source) → (∀ n ∈ g.nodes, n.id ≠ e.target) →
      g.checkEdge e = .error (.nodeNotFound e.target)) ∧
    ((∃ n ∈ g.nodes, n.id = e.source) → (∃ n ∈ g.nodes, n.id = e.target) →
      (g.checkEdge e = .ok .execution ↔ e.kind = .execution)) ∧
    (∀ s t, g.find? e.source = some s → g.find? e.target = some t → e.kind = .data →
      (s.output? e.sourceHandle = none →
        g.checkEdge e = .error (.portNotFound s.id e.sourceHandle true)) ∧
      (∀ sp, s.output? e.sourceHandle = some sp → t.input? e.targetHandle = none →
        g.checkEdge e = .error (.portNotFound t.id e.targetHandle false)) ∧
      (∀ sp tp, s.output? e.sourceHandle = some sp → t.input? e.targetHandle = some tp →
        g.checkEdge e = if ValueType.isCompatible sp.type tp.type then .ok .data
          else .error (.typeMismatch sp.type tp.type))) ∧
    (∀ k, g.checkEdge e = .ok k → k = e.kind) := by
  refine ⟨checkEdge_source_missing, fun hs ht => ?_, fun hs ht => ?_,
    fun s t hs ht hk => ⟨checkEdge_output_missing hs ht hk,
      fun _ hp hq => checkEdge_input_missing hs ht hk hp hq,
      fun _ _ hp hq => checkEdge_ports_found hs ht hk hp hq⟩,
    fun _ h => checkEdge_ok_kind h⟩
  · obtain ⟨s, hs⟩ := exists_find?_of_mem hs
    exact checkEdge_target_missing hs ht
  · obtain ⟨s, hs⟩ := exists_find?_of_mem hs
    obtain ⟨t, ht⟩ := exists_find?_of_mem ht
    constructor
    · exact fun h => (checkEdge_ok_kind h).symm
    · exact checkEdge_execution hs ht

/-- An edge from the `exec-out` handle of `setup` into a data port is a data edge, so it needs
an output port named `exec-out`. -/
example :
    Graph.checkEdge
      { nodes := [Node.setupEntry,
          { id := "f", inputs := [⟨"a", "a", .int, none, false⟩], kind := .call ⟨"f", "", none⟩ }] }
      ⟨"setup", execOut, "f", "a"⟩ = .error (.portNotFound "setup" execOut true) :=
  rfl

end Breadboard.Graph
