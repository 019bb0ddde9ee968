import Breadboard.Proofs.Compiler.Procedures

/-!
# Discovery is a recursive depth-first walk

`Graph.discover` walks the execution edges from an entry point with an explicit stack: it pops
an id, skips it when it was visited, marks it visited, and when it names a call or a variable
records it and pushes its execution targets so that the first comes out first. The stack may
hold an id many times, and visited ids are only checked when popped.

This file proves that the loop computes the recursive pre-order walk `Graph.DepthFirst`: visit
the entry point's targets in edge order; visiting an id marks it visited, skips it when it was
visited already or names no call or variable, and otherwise records it and visits its own
targets in edge order.

* `DepthFirst.deterministic` and `depthFirst_total`: the walk has exactly one outcome from any
  ids and visited set. It terminates because each call either pops an id or marks a new id
  visited and hands its edges to the ids still to visit (`Graph.discoverMeasure`).
* `DepthFirst.discoverFrom`: the simulation. A walk over `ids` is what the loop does with `ids`
  on top of its stack: the stack, read from the top, is the targets still to visit of the
  innermost call, then of the call around it, and so on out.
* `discover_eq_depthFirst`: discovery lists exactly what the walk records; so it lists each call
  or variable reached through calls and variables once, and nothing else.
-/

namespace Breadboard.Graph

variable {g : Graph}

variable (g) in
/-- `g.DepthFirst ids visited visited' found`: the recursive walk over `ids`, in order, started
with the ids `visited` marked, ends with `visited'` marked and records `found`, in pre-order. -/
inductive DepthFirst : List String → List String → List String → List String → Prop
  | nil (visited : List String) : DepthFirst [] visited visited []
  /-- An id visited before is skipped. -/
  | seen {id : String} {ids visited visited' found : List String} :
      id ∈ visited → DepthFirst ids visited visited' found →
      DepthFirst (id :: ids) visited visited' found
  /-- An id naming no call or variable is marked and ends its branch. -/
  | pass {id : String} {ids visited visited' found : List String} :
      id ∉ visited → ¬ g.IsStepId id → DepthFirst ids (id :: visited) visited' found →
      DepthFirst (id :: ids) visited visited' found
  /-- A call or a variable is marked and recorded, then its targets are walked, then the rest. -/
  | enter {id : String} {ids visited v₁ v₂ f₁ f₂ : List String} :
      id ∉ visited → g.IsStepId id → DepthFirst (g.successors id) (id :: visited) v₁ f₁ →
      DepthFirst ids v₁ v₂ f₂ → DepthFirst (id :: ids) visited v₂ (id :: (f₁ ++ f₂))

variable {ids visited visited' found : List String}

/-- A walk only marks more ids. -/
theorem DepthFirst.visited_subset (h : g.DepthFirst ids visited visited' found) :
    visited ⊆ visited' := by
  induction h with
  | nil => exact List.Subset.refl _
  | seen _ _ ih => exact ih
  | pass _ _ _ ih => exact List.Subset.trans (List.subset_cons_self _ _) ih
  | enter _ _ _ _ ih₁ ih₂ =>
    exact List.Subset.trans (List.subset_cons_self _ _) (List.Subset.trans ih₁ ih₂)

/-- The walk has one outcome: the rules never overlap. -/
theorem DepthFirst.deterministic {v₁ v₂ f₁ f₂ : List String}
    (h₁ : g.DepthFirst ids visited v₁ f₁) (h₂ : g.DepthFirst ids visited v₂ f₂) :
    v₁ = v₂ ∧ f₁ = f₂ := by
  induction h₁ generalizing v₂ f₂ with
  | nil => cases h₂; exact ⟨rfl, rfl⟩
  | seen hv _ ih =>
    cases h₂ with
    | seen _ h => exact ih h
    | pass hv' => exact absurd hv hv'
    | enter hv' => exact absurd hv hv'
  | pass hv hs _ ih =>
    cases h₂ with
    | seen hv' => exact absurd hv' hv
    | pass _ _ h => exact ih h
    | enter _ hs' => exact absurd hs' hs
  | enter hv hs _ _ ih₁ ih₂ =>
    cases h₂ with
    | seen hv' => exact absurd hv' hv
    | pass _ hs' => exact absurd hs hs'
    | enter _ _ g₁ g₂ =>
      obtain ⟨rfl, rfl⟩ := ih₁ g₁
      obtain ⟨rfl, rfl⟩ := ih₂ g₂
      exact ⟨rfl, rfl⟩

/-! ## The walk terminates -/

/-- Marking more ids leaves less to do. -/
theorem discoverMeasure_anti {stack : List String} (h : visited ⊆ visited') :
    g.discoverMeasure stack visited' ≤ g.discoverMeasure stack visited := by
  have hle : (g.edges.countP fun e => e.kind == .execution && !visited'.contains e.source) ≤
      g.edges.countP fun e => e.kind == .execution && !visited.contains e.source :=
    List.countP_mono_left fun e _ he => by
      simp only [Bool.and_eq_true, Bool.not_eq_true', List.contains_eq_mem,
        decide_eq_false_iff_not] at he ⊢
      exact ⟨he.1, fun hm => he.2 (h hm)⟩
  simp only [discoverMeasure]
  omega

/-- From any ids and visited set the walk has an outcome. The induction is on a bound of the
measure: entering a call or a variable hands its edges to the ids still to visit, and the walk
over the rest starts with at least as many ids marked. -/
theorem depthFirst_total :
    ∀ (n : Nat) (ids visited : List String), g.discoverMeasure ids visited < n →
      ∃ visited' found, g.DepthFirst ids visited visited' found
  | 0, _, _, hm => absurd hm (Nat.not_lt_zero _)
  | _ + 1, [], visited, _ => ⟨visited, [], .nil visited⟩
  | k + 1, id :: ids, visited, hm => by
    have hpop : g.discoverMeasure ids (id :: visited) + 1 ≤ g.discoverMeasure (id :: ids) visited :=
      discoverMeasure_pop
    by_cases hv : id ∈ visited
    · have hlt : g.discoverMeasure ids visited < k := by
        simp only [discoverMeasure, List.length_cons] at hm ⊢
        omega
      obtain ⟨v, f, h⟩ := depthFirst_total k ids visited hlt
      exact ⟨v, f, .seen hv h⟩
    by_cases hs : g.IsStepId id
    · have hvisit : g.discoverMeasure (g.successors id ++ ids) (id :: visited) + 1 =
          g.discoverMeasure (id :: ids) visited :=
        discoverMeasure_visit (by simpa using hv)
      -- the targets alone are less to do than the targets with the rest
      have hsucc : g.discoverMeasure (g.successors id) (id :: visited) < k := by
        simp only [discoverMeasure, List.length_append, List.length_cons] at hvisit hm ⊢
        omega
      obtain ⟨v₁, f₁, h₁⟩ := depthFirst_total k _ _ hsucc
      have hrest : g.discoverMeasure ids v₁ < k :=
        Nat.lt_of_le_of_lt (discoverMeasure_anti h₁.visited_subset) (by omega)
      obtain ⟨v₂, f₂, h₂⟩ := depthFirst_total k ids v₁ hrest
      exact ⟨v₂, id :: (f₁ ++ f₂), .enter hv hs h₁ h₂⟩
    · obtain ⟨v, f, h⟩ := depthFirst_total k ids (id :: visited) (by omega)
      exact ⟨v, f, .pass hv hs h⟩

/-! ## The loop simulates the walk -/

/-- Popping an id that names no call or variable marks it and goes on with the rest. -/
theorem discoverFrom_pass {id : String} {stack found : List String} (k : Nat)
    (hv : id ∉ visited) (hs : ¬ g.IsStepId id) :
    g.discoverFrom (k + 1) (id :: stack) visited found =
      g.discoverFrom k stack (id :: visited) found := by
  have hc : visited.contains id = false := by simpa using hv
  simp only [discoverFrom, hc, Bool.false_eq_true, if_false]
  cases hf : g.find? id with
  | none => rfl
  | some n =>
    have hn : n.isStep = false := by simpa using fun h => hs ((isStepId_iff hf).mpr h)
    simp [hn]

/-- Popping a call or a variable not visited yet records it and pushes its targets. -/
theorem discoverFrom_enter {id : String} {stack found : List String} (k : Nat)
    (hv : id ∉ visited) (hs : g.IsStepId id) :
    g.discoverFrom (k + 1) (id :: stack) visited found =
      g.discoverFrom k (g.successors id ++ stack) (id :: visited) (id :: found) := by
  obtain ⟨n, hf, hn⟩ := hs
  have hc : visited.contains id = false := by simpa using hv
  simp only [discoverFrom, hc, Bool.false_eq_true, if_false, hf, hn, if_true]

/-- **The simulation.** Walking `ids` is what the loop does with `ids` on top of its stack: it
ends with the rest of the stack, the walk's visited ids, and the walk's record added to what it
had found (kept last first), within the fuel left. -/
theorem DepthFirst.discoverFrom (h : g.DepthFirst ids visited visited' found) :
    ∀ (fuel : Nat) (rest found₀ : List String), g.discoverMeasure (ids ++ rest) visited < fuel →
      ∃ fuel', g.discoverMeasure rest visited' < fuel' ∧
        g.discoverFrom fuel (ids ++ rest) visited found₀ =
          g.discoverFrom fuel' rest visited' (found.reverse ++ found₀) := by
  induction h with
  | nil visited => exact fun fuel rest found₀ hm => ⟨fuel, hm, rfl⟩
  | @seen id ids visited visited' found hv _ ih =>
    intro fuel rest found₀ hm
    obtain ⟨k, rfl⟩ := exists_fuel_succ hm
    have hc : visited.contains id = true := by simpa using hv
    have hlt : g.discoverMeasure (ids ++ rest) visited < k := by
      simp only [discoverMeasure, List.cons_append, List.length_cons] at hm ⊢
      omega
    simp only [List.cons_append, Graph.discoverFrom, hc, if_true]
    exact ih k rest found₀ hlt
  | @pass id ids visited visited' found hv hs _ ih =>
    intro fuel rest found₀ hm
    obtain ⟨k, rfl⟩ := exists_fuel_succ hm
    have hpop : g.discoverMeasure (ids ++ rest) (id :: visited) + 1 ≤
        g.discoverMeasure (id :: (ids ++ rest)) visited := discoverMeasure_pop
    rw [List.cons_append, discoverFrom_pass k hv hs]
    exact ih k rest found₀ (by simp only [List.cons_append] at hm; omega)
  | @enter id ids visited v₁ v₂ f₁ f₂ hv hs _ _ ih₁ ih₂ =>
    intro fuel rest found₀ hm
    obtain ⟨k, rfl⟩ := exists_fuel_succ hm
    have hvisit : g.discoverMeasure (g.successors id ++ (ids ++ rest)) (id :: visited) + 1 =
        g.discoverMeasure (id :: (ids ++ rest)) visited :=
      discoverMeasure_visit (by simpa using hv)
    rw [List.cons_append, discoverFrom_enter k hv hs]
    -- the targets of `id` are walked on top of the rest of `ids`, then the rest of `ids`
    obtain ⟨k₁, hm₁, h₁⟩ := ih₁ k (ids ++ rest) (id :: found₀)
      (by simp only [List.cons_append] at hm; omega)
    obtain ⟨k₂, hm₂, h₂⟩ := ih₂ k₁ rest (f₁.reverse ++ id :: found₀) hm₁
    refine ⟨k₂, hm₂, ?_⟩
    rw [h₁, h₂]
    simp

/-- **Discovery is the recursive depth-first walk.** The walk from the entry point's targets,
with nothing marked, records exactly the ids discovery lists. So discovery lists each call or
variable reached through calls and variables once, and nothing else. -/
theorem discover_eq_depthFirst (g : Graph) (entry : String) :
    (∀ found, (∃ visited, g.DepthFirst (g.successors entry) [] visited found) ↔
      found = g.discover entry) ∧
    (g.discover entry).Nodup ∧
    ∀ x, x ∈ g.discover entry ↔ g.ExecReaches entry x ∧ g.IsStepId x := by
  have hwalk : ∀ visited found, g.DepthFirst (g.successors entry) [] visited found →
      found = g.discover entry := by
    intro visited found h
    obtain ⟨k, -, hk⟩ := h.discoverFrom (2 * g.edges.length + 1) [] []
      (by simpa using discoverMeasure_start entry)
    rw [List.append_nil] at hk
    rw [discover, hk, discoverFrom_nil, List.append_nil, List.reverse_reverse]
  refine ⟨fun found => ⟨?_, fun hf => ?_⟩, discover_reaches entry⟩
  · rintro ⟨visited, h⟩
    exact hwalk visited found h
  · -- the walk has an outcome, which is then discovery's list
    obtain ⟨visited, found', h⟩ := depthFirst_total _ (g.successors entry) []
      (discoverMeasure_start entry)
    rw [hf, ← hwalk visited found' h]
    exact ⟨visited, h⟩

/-- Branches are walked in edge order, a back edge ends at the id already recorded, and the
second branch of `setup` comes after the whole first one. -/
example :
    Graph.discover
      ⟨[Node.setupEntry, ⟨"f", [], [], .call ⟨"f", "", none⟩⟩, ⟨"g", [], [], .call ⟨"g", "", none⟩⟩,
        ⟨"h", [], [], .call ⟨"h", "", none⟩⟩],
        [Edge.exec "setup" "f", Edge.exec "f" "g", Edge.exec "g" "f", Edge.exec "setup" "h"]⟩
      "setup" = ["f", "g", "h"] := by
  decide

end Breadboard.Graph
