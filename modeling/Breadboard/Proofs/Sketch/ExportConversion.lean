import Mathlib.Data.List.Forall2
import Breadboard.Sketch.Export

/-!
# From an editor export to a sketch graph

`SketchEntry.toGraph` turns an editor export into a sketch graph node by node. This file says,
for every export, when the conversion succeeds, what it gives, and which error it reports
otherwise.

* `mapM_eq_ok_iff`, `mapM_eq_error_iff`: a traversal that may fail succeeds exactly when every
  element does, and otherwise fails with the error of the first element that fails. The
  conversion is three such traversals: the nodes, and in each node its input and its output
  ports.
* `PortConverts`, `KindConverts`, `NodeConverts`: what a port, a node's own fields and a node
  become; `KindFails`, `FirstUntyped`, `NodeFails`: which error a node gives, its own fields
  first, then its first input port whose type name spells no type, then its first such output
  port. `NodeEntry.Valid`: a node that converts.
* `toGraph_spec`: an export converts exactly when all its nodes are valid. The graph then holds
  the converted nodes in order, followed by a `setup` node when none of them is of that kind,
  and a `loop` node likewise (`withEntryPoints`), so it always has both entry points; its edges
  are the export's, with a missing handle read as empty (`EdgeEntry.toEdge`). A failing export
  reports the error of its first node that fails.
-/

namespace Breadboard.Export

open Json (JsonText)

/-! ## Traversals that may fail -/

section Traversal

variable {α β ε : Type} (f : α → Except ε β)

/-- A traversal succeeds exactly when each element succeeds, with the results in order. -/
theorem mapM_eq_ok_iff (xs : List α) (ys : List β) :
    xs.mapM f = .ok ys ↔ List.Forall₂ (fun x y => f x = .ok y) xs ys := by
  induction xs generalizing ys with
  | nil => cases ys <;> simp [pure, Except.pure]
  | cons x xs ih =>
    rw [List.mapM_cons]
    cases hx : f x with
    | error e => cases ys <;> simp [bind, Except.bind, hx]
    | ok y =>
      cases hxs : xs.mapM f with
      | error e =>
        cases ys with
        | nil => simp [bind, Except.bind]
        | cons z zs => simp [bind, Except.bind, ← ih, hxs]
      | ok zs =>
        cases ys with
        | nil => simp [bind, Except.bind, pure, Except.pure]
        | cons w ws => simp [bind, Except.bind, pure, Except.pure, ← ih, hxs, hx]

/-- A traversal fails with the error of the first element that fails; the elements before it
all succeed. -/
theorem mapM_eq_error_iff (xs : List α) (e : ε) :
    xs.mapM f = .error e ↔
      ∃ pre x post, xs = pre ++ x :: post ∧ (∀ y ∈ pre, ∃ z, f y = .ok z) ∧ f x = .error e := by
  induction xs with
  | nil => simp [pure, Except.pure]
  | cons x xs ih =>
    rw [List.mapM_cons]
    cases hx : f x with
    | error e' =>
      simp only [bind, Except.bind, Except.error.injEq]
      constructor
      · rintro rfl
        exact ⟨[], x, xs, rfl, by simp, hx⟩
      · rintro ⟨pre, y, post, h, hpre, hy⟩
        cases pre with
        | nil =>
          obtain ⟨rfl, rfl⟩ := List.cons.inj h
          exact Except.error.inj (hx.symm.trans hy)
        | cons z pre =>
          obtain ⟨rfl, -⟩ := List.cons.inj h
          obtain ⟨w, hw⟩ := hpre _ List.mem_cons_self
          cases hx.symm.trans hw
    | ok y =>
      -- the head succeeds, so the first failure is in the tail
      have hrest : (do let b ← Except.ok y; let bs ← xs.mapM f; pure (b :: bs) :
          Except ε (List β)) = .error e ↔ xs.mapM f = .error e := by
        cases xs.mapM f <;> simp [bind, Except.bind, pure, Except.pure]
      rw [hrest, ih]
      constructor
      · rintro ⟨pre, z, post, rfl, hpre, hz⟩
        refine ⟨x :: pre, z, post, rfl, fun w hw => ?_, hz⟩
        rcases List.mem_cons.mp hw with rfl | hw
        · exact ⟨y, hx⟩
        · exact hpre w hw
      · rintro ⟨pre, z, post, h, hpre, hz⟩
        cases pre with
        | nil =>
          obtain ⟨rfl, -⟩ := List.cons.inj h
          cases hx.symm.trans hz
        | cons w pre =>
          obtain ⟨-, rfl⟩ := List.cons.inj h
          exact ⟨pre, z, post, rfl, fun v hv => hpre v (List.mem_cons_of_mem _ hv), hz⟩

/-- What each element related to some element has, every element of the first list has. -/
theorem forall_mem_of_forall₂ {γ : Type} {R : α → γ → Prop} {P : α → Prop}
    (hR : ∀ a c, R a c → P a) {xs : List α} {zs : List γ} (h : List.Forall₂ R xs zs) :
    ∀ x ∈ xs, P x := by
  induction h with
  | nil => simp
  | cons hxz _ ih =>
    intro x hx
    rcases List.mem_cons.mp hx with rfl | hx
    · exact hR _ _ hxz
    · exact ih x hx

end Traversal

/-! ## Type names -/

/-- A text names a value type: once the blanks around it are dropped, it is that type's
spelling. -/
def SpellsType (s : String) : Prop :=
  ∃ t : ValueType, t.spelling = Text.trim s

theorem ofSpelling?_eq_some_iff {s : String} {t : ValueType} :
    ValueType.ofSpelling? s = some t ↔ t.spelling = s := by
  constructor
  · intro h
    simpa using List.find?_some h
  · rintro rfl
    exact ValueType.ofSpelling?_spelling t

/-- Distinct types have distinct spellings. -/
theorem spelling_injective : Function.Injective ValueType.spelling := fun a b h =>
  Option.some.inj ((ValueType.ofSpelling?_spelling a).symm.trans
    (h ▸ ValueType.ofSpelling?_spelling b))

theorem typeOf_eq_ok_iff {nodeId name : String} {t : ValueType} :
    typeOf nodeId name = .ok t ↔ t.spelling = Text.trim name := by
  rw [← ofSpelling?_eq_some_iff]
  cases h : ValueType.ofSpelling? (Text.trim name) <;>
    simp [typeOf, ValueType.ofString?, h]

/-- A type name that spells no type is reported with the node's id and the name as given. -/
theorem typeOf_eq_error_iff {nodeId name : String} {err : ConversionError} :
    typeOf nodeId name = .error err ↔ ¬ SpellsType name ∧ err = .unknownValueType nodeId name := by
  have hnone : ValueType.ofSpelling? (Text.trim name) = none ↔ ¬ SpellsType name := by
    simp only [SpellsType, not_exists, ← ofSpelling?_eq_some_iff]
    exact Option.eq_none_iff_forall_ne_some
  cases h : ValueType.ofSpelling? (Text.trim name) with
  | none => simp [typeOf, ValueType.ofString?, h, hnone.mp h, eq_comm]
  | some t =>
    have hs : SpellsType name := ⟨t, ofSpelling?_eq_some_iff.mp h⟩
    simp [typeOf, ValueType.ofString?, h, hs]

/-! ## Ports -/

/-- What an exported port becomes: its id, label and connection flag, the type its type name
spells, and the text of its value as literal. -/
structure PortConverts (J : JsonText) (p : PortEntry) (q : Port) : Prop where
  id_eq : q.id = p.id
  label_eq : q.label = p.label
  connected_eq : q.connected = p.connected
  spells : q.type.spelling = Text.trim p.type
  literal_eq : q.literal = p.value.bind (literalText J)

/-- The first port of the list whose type name spells no type, and the error it gives. -/
def FirstUntyped (nodeId : String) (ps : List PortEntry) (err : ConversionError) : Prop :=
  ∃ pre p post, ps = pre ++ p :: post ∧ (∀ q ∈ pre, SpellsType q.type) ∧ ¬ SpellsType p.type ∧
    err = .unknownValueType nodeId p.type

variable {J : JsonText} {nodeId : String} {ps : List PortEntry}

/-- What converting does to one port. -/
def portStep (J : JsonText) (nodeId : String) (p : PortEntry) : Except ConversionError Port := do
  let type ← typeOf nodeId p.type
  pure ⟨p.id, p.label, type, p.value.bind (literalText J), p.connected⟩

theorem ports_eq_mapM : ports J nodeId ps = ps.mapM (portStep J nodeId) := rfl

theorem portStep_eq_ok_iff {p : PortEntry} {q : Port} :
    portStep J nodeId p = .ok q ↔ PortConverts J p q := by
  cases h : typeOf nodeId p.type with
  | error e =>
    simp only [portStep, h, bind, Except.bind, reduceCtorEq, false_iff]
    exact fun hq => (typeOf_eq_error_iff.mp h).1 ⟨q.type, hq.spells⟩
  | ok t =>
    have ht : t.spelling = Text.trim p.type := typeOf_eq_ok_iff.mp h
    simp only [portStep, h, bind, Except.bind, pure, Except.pure, Except.ok.injEq]
    constructor
    · rintro rfl
      exact ⟨rfl, rfl, rfl, ht, rfl⟩
    · intro hq
      -- the spelled type is unique, so the port is determined
      have htype : q.type = t := spelling_injective (hq.spells.trans ht.symm)
      obtain ⟨qid, qlabel, qtype, qliteral, qconnected⟩ := q
      obtain ⟨h1, h2, h3, -, h5⟩ := hq
      simp_all

theorem portStep_ok_iff {p : PortEntry} : (∃ q, portStep J nodeId p = .ok q) ↔ SpellsType p.type := by
  simp only [portStep_eq_ok_iff]
  constructor
  · rintro ⟨q, hq⟩
    exact ⟨q.type, hq.spells⟩
  · rintro ⟨t, ht⟩
    exact ⟨⟨p.id, p.label, t, p.value.bind (literalText J), p.connected⟩, rfl, rfl, rfl, ht, rfl⟩

/-- A port fails exactly when its type name spells no type. -/
theorem portStep_eq_error_iff {p : PortEntry} {err : ConversionError} :
    portStep J nodeId p = .error err ↔
      ¬ SpellsType p.type ∧ err = .unknownValueType nodeId p.type := by
  cases h : typeOf nodeId p.type with
  | error e =>
    obtain ⟨hno, rfl⟩ := typeOf_eq_error_iff.mp h
    simp [portStep, h, bind, Except.bind, hno, eq_comm]
  | ok t =>
    have hyes : SpellsType p.type := ⟨t, typeOf_eq_ok_iff.mp h⟩
    simp [portStep, h, bind, Except.bind, pure, Except.pure, hyes]

theorem ports_eq_ok_iff {qs : List Port} :
    ports J nodeId ps = .ok qs ↔ List.Forall₂ (PortConverts J) ps qs := by
  rw [ports_eq_mapM, mapM_eq_ok_iff]
  exact ⟨List.Forall₂.imp fun _ _ => portStep_eq_ok_iff.mp,
    List.Forall₂.imp fun _ _ => portStep_eq_ok_iff.mpr⟩

theorem ports_eq_error_iff {err : ConversionError} :
    ports J nodeId ps = .error err ↔ FirstUntyped nodeId ps err := by
  rw [ports_eq_mapM, mapM_eq_error_iff]
  simp only [portStep_ok_iff, portStep_eq_error_iff, FirstUntyped]

/-- Ports whose type names all spell types convert. -/
theorem ports_ok_of_typed (h : ∀ p ∈ ps, SpellsType p.type) : ∃ qs, ports J nodeId ps = .ok qs := by
  cases hp : ports J nodeId ps with
  | ok qs => exact ⟨qs, rfl⟩
  | error err =>
    obtain ⟨pre, p, post, rfl, -, hbad, -⟩ := ports_eq_error_iff.mp hp
    exact absurd (h p (by simp)) hbad

theorem typed_of_forall₂ {qs : List Port} (h : List.Forall₂ (PortConverts J) ps qs) :
    ∀ p ∈ ps, SpellsType p.type :=
  forall_mem_of_forall₂ (fun _ q hq => ⟨q.type, hq.spells⟩) h

/-! ## A node's own fields -/

/-- The node types an export may use. -/
def nodeTypes : List String := ["setup", "loop", "function", "variable"]

/-- What a node's own fields make of it: an entry point, a call of the named function, or a
variable of the type its type name spells (`int` when it has none). -/
inductive KindConverts (J : JsonText) (n : NodeEntry) : NodeKind → Prop
  | setup : n.data.nodeType = "setup" → KindConverts J n .setup
  | loop : n.data.nodeType = "loop" → KindConverts J n .loop
  | call {name : String} : n.data.nodeType = "function" → n.data.functionName = some name →
      KindConverts J n (.call ⟨name, n.data.library.getD "",
        n.data.includeStatement.filter (!Text.isBlankText ·)⟩)
  | var {t : ValueType} : n.data.nodeType = "variable" →
      t.spelling = Text.trim (n.data.variableType.getD "int") →
      KindConverts J n (.variable ⟨n.data.variableName.getD "", t,
        n.data.initialValue.bind (literalText J), n.data.isGlobal.getD true⟩)

/-- The error a node's own fields give: an unknown node type, a function node without a
function name, or a variable whose type name spells no type. -/
inductive KindFails (n : NodeEntry) : ConversionError → Prop
  | unknown : n.data.nodeType ∉ nodeTypes → KindFails n (.unknownNodeType n.id n.data.nodeType)
  | unnamed : n.data.nodeType = "function" → n.data.functionName = none →
      KindFails n (.invalid ("Function node '" ++ n.id ++ "' has no function name"))
  | untyped : n.data.nodeType = "variable" → ¬ SpellsType (n.data.variableType.getD "int") →
      KindFails n (.unknownValueType n.id (n.data.variableType.getD "int"))

variable {n : NodeEntry}

/-- What a node's own fields give, read off a success. -/
theorem KindConverts.of_kind {k : NodeKind} (h : n.kind J = .ok k) : KindConverts J n k := by
  simp only [NodeEntry.kind] at h
  generalize hT : n.data.nodeType = T at h
  split at h
  · cases h
    exact .setup hT
  · cases h
    exact .loop hT
  · cases hf : n.data.functionName with
    | none => simp [hf] at h
    | some name =>
      simp only [hf, Except.ok.injEq] at h
      subst h
      exact .call hT hf
  · cases ht : typeOf n.id (n.data.variableType.getD "int") with
    | error e => simp [ht, bind, Except.bind] at h
    | ok t =>
      simp only [ht, bind, Except.bind, pure, Except.pure, Except.ok.injEq] at h
      subst h
      exact .var hT (typeOf_eq_ok_iff.mp ht)
  · cases h

/-- What a node's own fields give, read off a failure. -/
theorem KindFails.of_kind {err : ConversionError} (h : n.kind J = .error err) : KindFails n err := by
  simp only [NodeEntry.kind] at h
  generalize hT : n.data.nodeType = T at h
  split at h
  · cases h
  · cases h
  · cases hf : n.data.functionName with
    | none =>
      simp only [hf, Except.error.injEq] at h
      subst h
      exact .unnamed hT hf
    | some name => simp [hf] at h
  · cases ht : typeOf n.id (n.data.variableType.getD "int") with
    | error e =>
      simp only [ht, bind, Except.bind, Except.error.injEq] at h
      subst h
      obtain ⟨hbad, rfl⟩ := typeOf_eq_error_iff.mp ht
      exact .untyped hT hbad
    | ok t => simp [ht, bind, Except.bind, pure, Except.pure] at h
  · rename_i hs hl hf hv
    simp only [Except.error.injEq] at h
    subst h hT
    have hnot : n.data.nodeType ∉ nodeTypes := by
      simp only [nodeTypes, List.mem_cons, List.not_mem_nil, or_false]
      rintro (h | h | h | h) <;> contradiction
    exact .unknown hnot

theorem KindConverts.kind {k : NodeKind} (h : KindConverts J n k) : n.kind J = .ok k := by
  cases h with
  | setup hT => simp [NodeEntry.kind, hT]
  | loop hT => simp [NodeEntry.kind, hT]
  | call hT hf => simp [NodeEntry.kind, hT, hf]
  | var hT ht =>
    have htype : typeOf n.id (n.data.variableType.getD "int") = .ok _ := typeOf_eq_ok_iff.mpr ht
    simp [NodeEntry.kind, hT, htype, bind, Except.bind, pure, Except.pure]

theorem KindFails.kind {err : ConversionError} (h : KindFails n err) : n.kind J = .error err := by
  cases h with
  | unknown hT =>
    simp only [NodeEntry.kind]
    generalize n.data.nodeType = T at hT ⊢
    split <;> simp_all [nodeTypes]
  | unnamed hT hf => simp [NodeEntry.kind, hT, hf]
  | untyped hT hbad =>
    have htype : typeOf n.id (n.data.variableType.getD "int") = .error _ :=
      typeOf_eq_error_iff.mpr ⟨hbad, rfl⟩
    simp [NodeEntry.kind, hT, htype, bind, Except.bind]

theorem kind_eq_ok_iff {k : NodeKind} : n.kind J = .ok k ↔ KindConverts J n k :=
  ⟨KindConverts.of_kind, KindConverts.kind⟩

theorem kind_eq_error_iff {err : ConversionError} : n.kind J = .error err ↔ KindFails n err :=
  ⟨KindFails.of_kind, KindFails.kind⟩

/-! ## Nodes -/

/-- What an exported node becomes: its id, the kind its own fields make, and its ports
converted in order. -/
structure NodeConverts (J : JsonText) (n : NodeEntry) (m : Node) : Prop where
  id_eq : m.id = n.id
  fields : KindConverts J n m.kind
  inputs : List.Forall₂ (PortConverts J) n.data.inputs m.inputs
  outputs : List.Forall₂ (PortConverts J) n.data.outputs m.outputs

/-- The error of a node: that of its own fields; else that of its first input port whose type
name spells no type; else that of its first such output port. -/
inductive NodeFails (J : JsonText) (n : NodeEntry) : ConversionError → Prop
  | fields {err : ConversionError} : KindFails n err → NodeFails J n err
  | input {k : NodeKind} {err : ConversionError} : KindConverts J n k →
      FirstUntyped n.id n.data.inputs err → NodeFails J n err
  | output {k : NodeKind} {err : ConversionError} : KindConverts J n k →
      (∀ p ∈ n.data.inputs, SpellsType p.type) → FirstUntyped n.id n.data.outputs err →
      NodeFails J n err

/-- A node an export may hold: a known node type, a function name on a function node, and
type names that spell types. -/
structure NodeEntry.Valid (n : NodeEntry) : Prop where
  known : n.data.nodeType ∈ nodeTypes
  named : n.data.nodeType = "function" → n.data.functionName ≠ none
  typed : n.data.nodeType = "variable" → SpellsType (n.data.variableType.getD "int")
  inputs_typed : ∀ p ∈ n.data.inputs, SpellsType p.type
  outputs_typed : ∀ p ∈ n.data.outputs, SpellsType p.type

theorem toNode_eq_ok_iff {m : Node} : n.toNode J = .ok m ↔ NodeConverts J n m := by
  constructor
  · intro h
    cases hk : n.kind J with
    | error e => simp [NodeEntry.toNode, hk, bind, Except.bind] at h
    | ok k =>
      cases hi : ports J n.id n.data.inputs with
      | error e => simp [NodeEntry.toNode, hk, hi, bind, Except.bind] at h
      | ok qs =>
        cases ho : ports J n.id n.data.outputs with
        | error e => simp [NodeEntry.toNode, hk, hi, ho, bind, Except.bind] at h
        | ok rs =>
          simp only [NodeEntry.toNode, hk, hi, ho, bind, Except.bind, pure, Except.pure,
            Except.ok.injEq] at h
          subst h
          exact ⟨rfl, kind_eq_ok_iff.mp hk, ports_eq_ok_iff.mp hi, ports_eq_ok_iff.mp ho⟩
  · intro h
    obtain ⟨mid, mi, mo, mk⟩ := m
    obtain ⟨rfl, hk, hi, ho⟩ := h
    simp [NodeEntry.toNode, hk.kind, ports_eq_ok_iff.mpr hi, ports_eq_ok_iff.mpr ho, bind,
      Except.bind, pure, Except.pure]

theorem toNode_eq_error_iff {err : ConversionError} : n.toNode J = .error err ↔ NodeFails J n err := by
  constructor
  · intro h
    cases hk : n.kind J with
    | error e =>
      simp only [NodeEntry.toNode, hk, bind, Except.bind, Except.error.injEq] at h
      subst h
      exact .fields (kind_eq_error_iff.mp hk)
    | ok k =>
      cases hi : ports J n.id n.data.inputs with
      | error e =>
        simp only [NodeEntry.toNode, hk, hi, bind, Except.bind, Except.error.injEq] at h
        subst h
        exact .input (kind_eq_ok_iff.mp hk) (ports_eq_error_iff.mp hi)
      | ok qs =>
        cases ho : ports J n.id n.data.outputs with
        | error e =>
          simp only [NodeEntry.toNode, hk, hi, ho, bind, Except.bind, Except.error.injEq] at h
          subst h
          exact .output (kind_eq_ok_iff.mp hk) (typed_of_forall₂ (ports_eq_ok_iff.mp hi))
            (ports_eq_error_iff.mp ho)
        | ok rs => simp [NodeEntry.toNode, hk, hi, ho, bind, Except.bind, pure, Except.pure] at h
  · intro h
    cases h with
    | fields hf => simp [NodeEntry.toNode, hf.kind, bind, Except.bind]
    | input hk hi => simp [NodeEntry.toNode, hk.kind, ports_eq_error_iff.mpr hi, bind, Except.bind]
    | output hk hi ho =>
      obtain ⟨qs, hqs⟩ : ∃ qs, ports J n.id n.data.inputs = .ok qs := ports_ok_of_typed hi
      simp [NodeEntry.toNode, hk.kind, hqs, ports_eq_error_iff.mpr ho, bind, Except.bind]

/-- A node's own fields that convert pass the node-level checks. -/
theorem KindConverts.checks {k : NodeKind} (h : KindConverts J n k) :
    n.data.nodeType ∈ nodeTypes ∧ (n.data.nodeType = "function" → n.data.functionName ≠ none) ∧
      (n.data.nodeType = "variable" → SpellsType (n.data.variableType.getD "int")) := by
  cases h with
  | setup hT => simp [hT, nodeTypes]
  | loop hT => simp [hT, nodeTypes]
  | call hT hf => simp [hT, hf, nodeTypes]
  | var hT ht => exact ⟨by simp [hT, nodeTypes], by simp [hT], fun _ => ⟨_, ht⟩⟩

theorem NodeConverts.valid {m : Node} (h : NodeConverts J n m) : n.Valid :=
  have hc := h.fields.checks
  ⟨hc.1, hc.2.1, hc.2.2, typed_of_forall₂ h.inputs, typed_of_forall₂ h.outputs⟩

theorem NodeFails.not_valid {err : ConversionError} (h : NodeFails J n err) : ¬ n.Valid := by
  intro hv
  cases h with
  | fields hf =>
    cases hf with
    | unknown hT => exact hT hv.known
    | unnamed hT hf => exact hv.named hT hf
    | untyped hT hbad => exact hbad (hv.typed hT)
  | input _ hi =>
    obtain ⟨pre, p, post, hps, -, hbad, -⟩ := hi
    exact hbad (hv.inputs_typed p (by simp [hps]))
  | output _ _ ho =>
    obtain ⟨pre, p, post, hps, -, hbad, -⟩ := ho
    exact hbad (hv.outputs_typed p (by simp [hps]))

/-- A node converts exactly when it is valid. -/
theorem valid_iff_toNode_ok : n.Valid ↔ ∃ m, n.toNode J = .ok m := by
  constructor
  · intro hv
    cases hm : n.toNode J with
    | ok m => exact ⟨m, rfl⟩
    | error e => exact absurd hv (toNode_eq_error_iff.mp hm).not_valid
  · rintro ⟨m, hm⟩
    exact (toNode_eq_ok_iff.mp hm).valid

/-! ## Exports -/

variable {s : SketchEntry}

theorem nodes_eq_ok_iff {ms : List Node} :
    s.nodes.mapM (NodeEntry.toNode J) = .ok ms ↔ List.Forall₂ (NodeConverts J) s.nodes ms := by
  rw [mapM_eq_ok_iff]
  exact ⟨List.Forall₂.imp fun _ _ => toNode_eq_ok_iff.mp,
    List.Forall₂.imp fun _ _ => toNode_eq_ok_iff.mpr⟩

theorem nodes_eq_error_iff {err : ConversionError} :
    s.nodes.mapM (NodeEntry.toNode J) = .error err ↔
      ∃ pre n post, s.nodes = pre ++ n :: post ∧ (∀ m ∈ pre, m.Valid) ∧ NodeFails J n err := by
  simp only [mapM_eq_error_iff, ← valid_iff_toNode_ok, toNode_eq_error_iff]

/-- Nodes followed by the entry points they lack: a `setup` node unless one of them is of that
kind, then a `loop` node unless one of them is of that kind. -/
def withEntryPoints (ms : List Node) : List Node :=
  ms ++ (if ∃ m ∈ ms, m.kind = .setup then [] else [Node.setupEntry]) ++
    (if ∃ m ∈ ms, m.kind = .loop then [] else [Node.loopEntry])

/-- The edge an exported edge stands for: a missing handle is read as empty. -/
def EdgeEntry.toEdge (e : EdgeEntry) : Edge :=
  ⟨e.source, e.sourceHandle.getD "", e.target, e.targetHandle.getD ""⟩

/-- Topping up a node list with the entry points it lacks gives both kinds. -/
theorem withEntryPoints_has (ms : List Node) (kind : NodeKind) (hk : kind = .setup ∨ kind = .loop) :
    ∃ m ∈ withEntryPoints ms, m.kind = kind := by
  rcases hk with rfl | rfl
  · by_cases hs : ∃ m ∈ ms, m.kind = .setup
    · obtain ⟨m, hm, hmk⟩ := hs
      exact ⟨m, by simp [withEntryPoints, hm], hmk⟩
    · exact ⟨Node.setupEntry, by simp [withEntryPoints, hs], rfl⟩
  · by_cases hl : ∃ m ∈ ms, m.kind = .loop
    · obtain ⟨m, hm, hmk⟩ := hl
      exact ⟨m, by simp [withEntryPoints, hm], hmk⟩
    · exact ⟨Node.loopEntry, by simp [withEntryPoints, hl], rfl⟩

/-- The graph of converted nodes: the nodes, the entry points they lack, and the edges. -/
theorem toGraph_of_nodes {ms : List Node} (h : s.nodes.mapM (NodeEntry.toNode J) = .ok ms) :
    s.toGraph J = .ok { nodes := withEntryPoints ms, edges := s.edges.map EdgeEntry.toEdge } := by
  simp [SketchEntry.toGraph, h, bind, Except.bind, pure, Except.pure, withEntryPoints,
    EdgeEntry.toEdge]

theorem toGraph_eq_error_iff {err : ConversionError} :
    s.toGraph J = .error err ↔ s.nodes.mapM (NodeEntry.toNode J) = .error err := by
  cases h : s.nodes.mapM (NodeEntry.toNode J) with
  | error e => simp [SketchEntry.toGraph, h, bind, Except.bind]
  | ok ms => simp [toGraph_of_nodes h]

/-- A converted export holds the converted nodes, then the entry points they lack, and the
export's edges. -/
theorem toGraph_shape {g : Graph} (hg : s.toGraph J = .ok g) :
    ∃ ms, List.Forall₂ (NodeConverts J) s.nodes ms ∧ g.nodes = withEntryPoints ms ∧
      g.edges = s.edges.map EdgeEntry.toEdge := by
  cases hn : s.nodes.mapM (NodeEntry.toNode J) with
  | error e => simp [toGraph_eq_error_iff.mpr hn] at hg
  | ok ms =>
    rw [toGraph_of_nodes hn, Except.ok.injEq] at hg
    subst hg
    exact ⟨ms, nodes_eq_ok_iff.mp hn, rfl, rfl⟩

/-- An export converts exactly when all its nodes are valid. -/
theorem toGraph_ok_iff_valid : (∃ g, s.toGraph J = .ok g) ↔ ∀ n ∈ s.nodes, n.Valid := by
  constructor
  · rintro ⟨g, hg⟩
    obtain ⟨ms, hms, -⟩ := toGraph_shape hg
    exact forall_mem_of_forall₂ (fun _ _ h => h.valid) hms
  · intro hv
    cases hg : s.toGraph J with
    | ok g => exact ⟨g, rfl⟩
    | error err =>
      -- a failing export has a node that fails, and a failing node is not valid
      obtain ⟨pre, n, post, hs, -, hf⟩ := nodes_eq_error_iff.mp (toGraph_eq_error_iff.mp hg)
      exact absurd (hv n (by simp [hs])) hf.not_valid

/-- **Converting an export.** An export converts exactly when all its nodes are valid. The
graph then holds the converted nodes in order, followed by a `setup` node when none of them is
of that kind and a `loop` node when none is of that kind, so it has both entry points; its
edges are the export's in order, with a missing handle read as empty. Otherwise the error is
that of the first node that fails: its own fields first, then its first input port whose type
name spells no type, then its first such output port. -/
theorem toGraph_spec (J : JsonText) (s : SketchEntry) :
    ((∃ g, s.toGraph J = .ok g) ↔ ∀ n ∈ s.nodes, n.Valid) ∧
    (∀ g, s.toGraph J = .ok g → ∃ ms, List.Forall₂ (NodeConverts J) s.nodes ms ∧
      g.nodes = withEntryPoints ms ∧ g.edges = s.edges.map EdgeEntry.toEdge ∧
      (∃ m ∈ g.nodes, m.kind = .setup) ∧ (∃ m ∈ g.nodes, m.kind = .loop)) ∧
    (∀ err, s.toGraph J = .error err ↔
      ∃ pre n post, s.nodes = pre ++ n :: post ∧ (∀ m ∈ pre, m.Valid) ∧ NodeFails J n err) := by
  refine ⟨toGraph_ok_iff_valid, fun g hg => ?_,
    fun err => toGraph_eq_error_iff.trans nodes_eq_error_iff⟩
  obtain ⟨ms, hms, hnodes, hedges⟩ := toGraph_shape hg
  refine ⟨ms, hms, hnodes, hedges, ?_, ?_⟩
  · exact hnodes ▸ withEntryPoints_has ms .setup (.inl rfl)
  · exact hnodes ▸ withEntryPoints_has ms .loop (.inr rfl)

/-- A node of unknown type reports its type before its ports are looked at. -/
example (J : JsonText) :
    (SketchEntry.mk [⟨"n", ⟨"widget", none, none, [⟨"a", "", "nope", none, false⟩], [], none,
      none, none, none, none⟩⟩] []).toGraph J = .error (.unknownNodeType "n" "widget") :=
  rfl

end Breadboard.Export
