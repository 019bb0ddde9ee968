import Breadboard.Proofs.Compiler.DanglingEdges

/-!
# Dependency ordering

Dependency ordering places each listed id after the listed ids that feed it, depth first, and
marks an id placed when its placing starts. A member met again while its placing is still in
progress is not placed a second time, so a data cycle is cut where it closes. This file proves
what the order is for every graph and every list of distinct ids, cycles, duplicate edges,
self-loops and sources outside the list included:

* `Graph.place_sorting`: the invariant of a placing (`Graph.Sorting`). The ids whose placing
  is in progress form a path along which each feeds the one before, so a member found on the
  path when it should come first feeds back through members to the id being placed;
* `Graph.dependencyOrder_feeders_first`: the order is a permutation of the ids; a member that
  feeds another comes before it unless the other feeds it back through members; so the order
  is topological when the members form no data cycle, and it is the given order when no
  member feeds another.
-/

namespace Breadboard.Graph

variable {g : Graph}

/-! ## Feeding and orders -/

variable (g) in
/-- Node `a` feeds node `b`: an edge from `a` ends at a handle of `b` other than `exec-in`. -/
def Feeds (a b : String) : Prop :=
  a ∈ g.producers b

/-- `a` comes before every occurrence of `b` in `order`. -/
def Before (order : List String) (a b : String) : Prop :=
  ∀ l₁ l₂, order = l₁ ++ b :: l₂ → a ∈ l₁

theorem Before.trans {order : List String} {a b c : String} (hab : Before order a b)
    (hbc : Before order b c) : Before order a c := by
  intro l₁ l₂ hsplit
  obtain ⟨m₁, m₂, rfl⟩ := List.append_of_mem (hbc l₁ l₂ hsplit)
  have h : order = m₁ ++ b :: (m₂ ++ c :: l₂) := by simp [hsplit]
  exact List.mem_append_left _ (hab m₁ _ h)

variable (g) in
/-- `a` feeds `b`, and both are among `members`. -/
def FeedsWithin (members : List String) (a b : String) : Prop :=
  a ∈ members ∧ b ∈ members ∧ g.Feeds a b

/-- Appending an id keeps `a` before `b`, provided `a` is already there when `b` is the id. -/
theorem Before.snoc {order : List String} {a b id : String} (h : Before order a b)
    (hid : b = id → a ∈ order) : Before (order ++ [id]) a b := by
  intro l₁ l₂ hsplit
  rcases List.eq_nil_or_concat l₂ with rfl | ⟨l₂', z, rfl⟩
  · -- the split is at the appended id
    obtain ⟨rfl, hb⟩ := List.append_inj' hsplit rfl
    exact hid (by simpa using hb.symm)
  · have h' : order ++ [id] = (l₁ ++ b :: l₂') ++ [z] := by simpa using hsplit
    exact h l₁ l₂' (List.append_inj' h' rfl).1

variable (g) in
/-- Every id of `order` comes after the members that feed it, except a member that it feeds
back through members: the two lie on a data cycle among the members. -/
def FeedsFirstOffCycles (members order : List String) : Prop :=
  ∀ a b, a ∈ members → g.Feeds a b → ¬ Relation.TransGen (g.FeedsWithin members) b a →
    Before order a b

/-- Only membership in `members` matters to the order. -/
theorem FeedsFirstOffCycles.of_mem_iff {members members' order : List String}
    (h : g.FeedsFirstOffCycles members order) (hmem : ∀ x, x ∈ members ↔ x ∈ members') :
    g.FeedsFirstOffCycles members' order := by
  have hw : g.FeedsWithin members' = g.FeedsWithin members := by
    funext a b
    simp only [FeedsWithin, hmem]
  intro a b ha hab hnot
  exact h a b ((hmem a).mpr ha) hab (hw ▸ hnot)

variable {members : List String}

/-- Appending an id after the members that feed it, those it feeds back apart, keeps the
order. -/
theorem FeedsFirstOffCycles.snoc {order : List String} {id : String}
    (h : g.FeedsFirstOffCycles members order)
    (hid : ∀ a ∈ members, g.Feeds a id → ¬ Relation.TransGen (g.FeedsWithin members) id a →
      a ∈ order) :
    g.FeedsFirstOffCycles members (order ++ [id]) :=
  fun a b ha hab hnot => (h a b ha hab hnot).snoc fun hb => hid a ha (hb ▸ hab) (hb ▸ hnot)

/-- One step of the fold over the producers of an id being placed: a producer that is a member
is placed in turn, any other is passed over. -/
def placeStep (g : Graph) (members : List String) (k : Nat) (st : List String × List String)
    (src : String) : List String × List String :=
  if members.contains src then g.place members k src st else st

variable (members : List String) in
/-- What a placing keeps, for the ids `path` whose placing is in progress: the order so far
(last first) puts every id after the members that feed it, those it feeds back apart; the
placed ids are the ordered ones and those on the path, which are not ordered yet; only members
are ordered, each once. -/
structure Sorting (path : List String) (st : List String × List String) : Prop where
  feedsFirst : g.FeedsFirstOffCycles members st.2.reverse
  placed : ∀ x ∈ st.1, x ∈ st.2 ∨ x ∈ path
  ordered_placed : ∀ x ∈ st.2, x ∈ st.1
  path_placed : ∀ x ∈ path, x ∈ st.1
  path_fresh : ∀ x ∈ path, x ∉ st.2
  ordered_mem : ∀ x ∈ st.2, x ∈ members
  nodup : st.2.Nodup

/-- Nothing is placed or ordered at the start. -/
theorem sorting_start : g.Sorting members [] ([], []) where
  feedsFirst := fun _ _ _ _ _ _ _ h => by simp at h
  placed := fun _ h => by simp at h
  ordered_placed := fun _ h => by simp at h
  path_placed := fun _ h => by simp at h
  path_fresh := fun _ h => by simp at h
  ordered_mem := fun _ h => by simp at h
  nodup := List.nodup_nil

/-- Starting to place an id that is not placed yet puts it on the path. -/
theorem Sorting.start {path : List String} {id : String} {placed ordered : List String}
    (hst : g.Sorting members path (placed, ordered)) (hnin : id ∉ placed) :
    g.Sorting members (id :: path) (id :: placed, ordered) where
  feedsFirst := hst.feedsFirst
  placed := fun x hx => by
    rcases List.mem_cons.mp hx with rfl | hx
    · exact .inr List.mem_cons_self
    · exact (hst.placed x hx).imp_right (List.mem_cons_of_mem _)
  ordered_placed := fun x hx => List.mem_cons_of_mem _ (hst.ordered_placed x hx)
  path_placed := fun x hx => by
    rcases List.mem_cons.mp hx with rfl | hx
    · exact List.mem_cons_self
    · exact List.mem_cons_of_mem _ (hst.path_placed x hx)
  path_fresh := fun x hx => by
    rcases List.mem_cons.mp hx with rfl | hx
    · exact fun h => hnin (hst.ordered_placed x h)
    · exact hst.path_fresh x hx
  ordered_mem := hst.ordered_mem
  nodup := hst.nodup

/-- Ending the placing of `id`, once every member that feeds it is ordered or on the path:
`id` leaves the path for the end of the order. A member feeding `id` that is not ordered is
`id` itself or on the path, and either way it is fed back by `id` through members. -/
theorem Sorting.finish {path : List String} {id : String} {placed : List String}
    {st : List String × List String} (hP : g.Sorting members (id :: path) st) (hid : id ∈ members)
    (hnin : id ∉ placed) (hpath_placed : ∀ x ∈ path, x ∈ placed) (hsub : id :: placed ⊆ st.1)
    (hpath : ∀ a ∈ path, Relation.TransGen (g.FeedsWithin members) id a)
    (hall : ∀ a ∈ members, g.Feeds a id → a ∈ st.2 ∨ a ∈ id :: path) :
    g.Sorting members path (st.1, id :: st.2) where
  feedsFirst := by
    rw [List.reverse_cons]
    refine hP.feedsFirst.snoc fun a ha hfeeds hnot => ?_
    rcases hall a ha hfeeds with h | h
    · exact List.mem_reverse.mpr h
    · rcases List.mem_cons.mp h with rfl | h
      · exact absurd (.single ⟨ha, ha, hfeeds⟩) hnot
      · exact absurd (hpath a h) hnot
  placed := fun x hx => by
    rcases hP.placed x hx with h | h
    · exact .inl (List.mem_cons_of_mem _ h)
    · rcases List.mem_cons.mp h with rfl | h
      · exact .inl List.mem_cons_self
      · exact .inr h
  ordered_placed := fun x hx => by
    rcases List.mem_cons.mp hx with rfl | hx
    · exact hsub List.mem_cons_self
    · exact hP.ordered_placed x hx
  path_placed := fun x hx => hsub (List.mem_cons_of_mem _ (hpath_placed x hx))
  path_fresh := fun x hx h => by
    rcases List.mem_cons.mp h with rfl | h
    · exact hnin (hpath_placed x hx)
    · exact hP.path_fresh x (List.mem_cons_of_mem _ hx) h
  ordered_mem := fun x hx => by
    rcases List.mem_cons.mp hx with rfl | hx
    · exact hid
    · exact hP.ordered_mem x hx
  nodup := List.nodup_cons.mpr ⟨hP.path_fresh id List.mem_cons_self, hP.nodup⟩

/-- The fold over the producers of an id being placed, with the id on the path: when each
nested placing keeps the invariant, orders its member unless it is on the path, and only adds
to the order, so does the fold, and every member among the producers ends ordered or on the
path. -/
theorem foldl_place_sorting {k : Nat} {id : String} {path placed : List String}
    (hrec : ∀ src c, src ∈ members → g.Feeds src id → g.Sorting members (id :: path) c →
      id :: placed ⊆ c.1 → g.Sorting members (id :: path) (g.place members k src c) ∧
        (src ∈ (g.place members k src c).2 ∨ src ∈ id :: path) ∧
        c.2 ⊆ (g.place members k src c).2) :
    ∀ (srcs : List String) (c : List String × List String),
      (∀ s ∈ srcs, g.Feeds s id) → g.Sorting members (id :: path) c → id :: placed ⊆ c.1 →
      g.Sorting members (id :: path) (srcs.foldl (g.placeStep members k) c) ∧
        id :: placed ⊆ (srcs.foldl (g.placeStep members k) c).1 ∧
        c.2 ⊆ (srcs.foldl (g.placeStep members k) c).2 ∧
        ∀ s ∈ srcs, s ∈ members →
          s ∈ (srcs.foldl (g.placeStep members k) c).2 ∨ s ∈ id :: path
  | [], c, _, hc, hsub => ⟨hc, hsub, List.Subset.refl _, by simp⟩
  | src :: srcs, c, hfeeds, hc, hsub => by
    -- one step places `src` when it is a member, and leaves the state alone otherwise
    have hone : g.Sorting members (id :: path) (g.placeStep members k c src) ∧
        c.1 ⊆ (g.placeStep members k c src).1 ∧ c.2 ⊆ (g.placeStep members k c src).2 ∧
        (src ∈ members → src ∈ (g.placeStep members k c src).2 ∨ src ∈ id :: path) := by
      by_cases hsrc : src ∈ members
      · rw [placeStep, if_pos (List.contains_iff_mem.mpr hsrc)]
        obtain ⟨hc', hsrc_in, hgrow⟩ := hrec src c hsrc (hfeeds src List.mem_cons_self) hc hsub
        exact ⟨hc', subset_place k src c, hgrow, fun _ => hsrc_in⟩
      · rw [placeStep, if_neg (by simpa using hsrc)]
        exact ⟨hc, List.Subset.refl _, List.Subset.refl _, fun h => absurd h hsrc⟩
    obtain ⟨hc₁, hsub₁, hgrow₁, hsrc₁⟩ := hone
    obtain ⟨hP, hsub', hgrow', hall⟩ := foldl_place_sorting hrec srcs _
      (fun s hs => hfeeds s (List.mem_cons_of_mem _ hs)) hc₁ (List.Subset.trans hsub hsub₁)
    rw [List.foldl_cons]
    refine ⟨hP, hsub', List.Subset.trans hgrow₁ hgrow', fun s hs hsm => ?_⟩
    rcases List.mem_cons.mp hs with rfl | hs
    · exact (hsrc₁ hsm).imp_left fun h => hgrow' h
    · exact hall s hs hsm

/-- Placing a member keeps the invariant, only adds to the order, and orders the member unless
its placing is already in progress, provided the member feeds every id on the path through
members and the fuel exceeds the members not yet placed. The induction is on the fuel: each
nested placing runs with one less, over a fold of the member's producers. -/
theorem place_sorting :
    ∀ (fuel : Nat) (id : String) (path : List String) (st : List String × List String),
      id ∈ members → (∀ a ∈ path, Relation.TransGen (g.FeedsWithin members) id a) →
      g.Sorting members path st → placeMeasure members st.1 < fuel →
      g.Sorting members path (g.place members fuel id st) ∧
        (id ∈ (g.place members fuel id st).2 ∨ id ∈ path) ∧
        st.2 ⊆ (g.place members fuel id st).2
  | 0, _, _, _, _, _, _, hfuel => absurd hfuel (Nat.not_lt_zero _)
  | k + 1, id, path, (placed, ordered), hid, hpath, hst, hfuel => by
    simp only [place]
    split
    · -- already placed: ordered, or on the path
      rename_i hin
      exact ⟨hst, hst.placed id (by simpa using hin), List.Subset.refl _⟩
    · rename_i hnin
      have hnin' : id ∉ placed := by simpa using hnin
      have hlt : placeMeasure members (id :: placed) < k := by
        have := countP_not_contains_cons_lt hid (Bool.eq_false_iff.mpr hnin)
        simp only [placeMeasure] at hfuel ⊢
        omega
      -- a member producer of `id` feeds every id on the path through `id`
      have hrec : ∀ src c, src ∈ members → g.Feeds src id → g.Sorting members (id :: path) c →
          id :: placed ⊆ c.1 → g.Sorting members (id :: path) (g.place members k src c) ∧
            (src ∈ (g.place members k src c).2 ∨ src ∈ id :: path) ∧
            c.2 ⊆ (g.place members k src c).2 := by
        intro src c hsrc hfeeds hc hsub
        have hw : g.FeedsWithin members src id := ⟨hsrc, hid, hfeeds⟩
        have hpath' : ∀ a ∈ id :: path, Relation.TransGen (g.FeedsWithin members) src a := by
          intro a ha
          rcases List.mem_cons.mp ha with rfl | ha
          · exact .single hw
          · exact .head hw (hpath a ha)
        exact place_sorting k src (id :: path) c hsrc hpath' hc
          (Nat.lt_of_le_of_lt (placeMeasure_anti hsub) hlt)
      obtain ⟨hP, hsub, hgrow, hall⟩ := foldl_place_sorting hrec (g.producers id)
        (id :: placed, ordered) (fun s hs => hs) (hst.start hnin') (List.Subset.refl _)
      dsimp only
      exact ⟨hP.finish hid hnin' hst.path_placed hsub hpath fun a ha hf => hall a hf ha,
        .inl List.mem_cons_self, List.Subset.trans hgrow (List.subset_cons_self _ _)⟩

/-- Placing the listed ids in turn, from the start, keeps the invariant with nothing in
progress and orders every one of them. -/
theorem foldl_place_top (ids : List String) :
    ∀ (l : List String) (st : List String × List String), (∀ x ∈ l, x ∈ ids) →
      g.Sorting ids [] st →
      g.Sorting ids [] (l.foldl (fun st id => g.place ids (ids.length + 1) id st) st) ∧
        ∀ x ∈ st.2 ++ l, x ∈ (l.foldl (fun st id => g.place ids (ids.length + 1) id st) st).2
  | [], st, _, hst => ⟨hst, by simp⟩
  | id :: l, st, hl, hst => by
    have hm : placeMeasure ids st.1 < ids.length + 1 := Nat.lt_succ_of_le List.countP_le_length
    obtain ⟨hst', hid, hgrow⟩ := place_sorting _ id [] st (hl id List.mem_cons_self)
      (fun _ h => by simp at h) hst hm
    obtain ⟨hP, hall⟩ := foldl_place_top ids l _ (fun x hx => hl x (List.mem_cons_of_mem _ hx)) hst'
    rw [List.foldl_cons]
    refine ⟨hP, fun x hx => hall x ?_⟩
    rcases List.mem_append.mp hx with hx | hx
    · exact List.mem_append_left _ (hgrow hx)
    · rcases List.mem_cons.mp hx with rfl | hx
      · exact List.mem_append_left _ (by simpa using hid)
      · exact List.mem_append_right _ hx

/-- The dependency order lists every given id once, and nothing else, and puts every id after
the listed ids that feed it, those it feeds back through listed ids apart. -/
theorem dependencyOrder_sorting (ids : List String) :
    g.FeedsFirstOffCycles ids (g.dependencyOrder ids) ∧ (g.dependencyOrder ids).Nodup ∧
      ∀ x, x ∈ g.dependencyOrder ids ↔ x ∈ ids := by
  obtain ⟨hP, hall⟩ := foldl_place_top ids ids ([], []) (fun _ h => h) sorting_start
  refine ⟨hP.feedsFirst, List.nodup_reverse.mpr hP.nodup, fun x => ?_⟩
  rw [dependencyOrder, List.mem_reverse]
  exact ⟨hP.ordered_mem x, fun hx => hall x (by simpa using hx)⟩

/-! ## When no member feeds another -/

/-- A placing whose producers feed it only from outside the members, or from itself, orders
the id right away. -/
theorem place_isolated {fuel : Nat} {id : String} {placed ordered : List String}
    (hfuel : 0 < fuel) (hnin : id ∉ placed) (hiso : ∀ src ∈ members, g.Feeds src id → src = id) :
    g.place members fuel id (placed, ordered) = (id :: placed, id :: ordered) := by
  obtain ⟨k, rfl⟩ : ∃ k, fuel = k + 1 := Nat.exists_eq_add_one.mpr hfuel
  -- each producer step finds nothing new to place
  have hstep : ∀ srcs : List String, (∀ s ∈ srcs, g.Feeds s id) →
      srcs.foldl (g.placeStep members k) (id :: placed, ordered) = (id :: placed, ordered) := by
    intro srcs
    induction srcs with
    | nil => exact fun _ => rfl
    | cons src srcs ih =>
      intro hfeeds
      rw [List.foldl_cons]
      have hone : g.placeStep members k (id :: placed, ordered) src = (id :: placed, ordered) := by
        unfold placeStep
        split
        · rename_i hsrc
          obtain rfl := hiso src (by simpa using hsrc) (hfeeds src List.mem_cons_self)
          cases k with
          | zero => rfl
          | succ k => simp [place]
        · rfl
      rw [hone]
      exact ih fun s hs => hfeeds s (List.mem_cons_of_mem _ hs)
  have hnin' : placed.contains id = false := by simpa using hnin
  simp only [place, hnin', Bool.false_eq_true, if_false]
  have hfold : (g.producers id).foldl
      (fun st src => if members.contains src then g.place members k src st else st)
      (id :: placed, ordered) = (id :: placed, ordered) := hstep (g.producers id) fun s hs => hs
  rw [hfold]

/-- When no listed id feeds another, placing them in turn orders them as listed. -/
theorem foldl_place_isolated (ids : List String)
    (hiso : ∀ u ∈ ids, ∀ v ∈ ids, u ≠ v → ¬ g.Feeds u v) :
    ∀ (l : List String) (placed ordered : List String), (∀ x ∈ l, x ∈ ids) → l.Nodup →
      (∀ x ∈ l, x ∉ placed) →
      l.foldl (fun st id => g.place ids (ids.length + 1) id st) (placed, ordered) =
        (l.reverse ++ placed, l.reverse ++ ordered)
  | [], _, _, _, _, _ => rfl
  | id :: l, placed, ordered, hsub, hnd, hfresh => by
    rw [List.nodup_cons] at hnd
    have hiso' : ∀ src ∈ ids, g.Feeds src id → src = id := fun src hsrc hf =>
      Classical.byContradiction fun hne => hiso src hsrc id (hsub id List.mem_cons_self) hne hf
    have hfresh' : ∀ x ∈ l, x ∉ id :: placed := by
      intro x hx h
      rcases List.mem_cons.mp h with rfl | h
      · exact hnd.1 hx
      · exact hfresh x (List.mem_cons_of_mem _ hx) h
    rw [List.foldl_cons, place_isolated (Nat.succ_pos _) (hfresh id List.mem_cons_self) hiso',
      foldl_place_isolated ids hiso l _ _ (fun x hx => hsub x (List.mem_cons_of_mem _ hx)) hnd.2
        hfresh']
    simp

/-- **Dependency ordering.** For distinct ids, the dependency order is a permutation of them. A
listed id that feeds another comes before it, unless the other feeds it back through listed
ids, which puts both on a data cycle among the listed ids. So the order is topological when the
listed ids form no data cycle, and it is the given order when no listed id feeds another. -/
theorem dependencyOrder_feeders_first (g : Graph) {ids : List String} (hnd : ids.Nodup) :
    (g.dependencyOrder ids).Perm ids ∧
    (∀ u ∈ ids, ∀ v ∈ ids, g.Feeds u v → ¬ Relation.TransGen (g.FeedsWithin ids) v u →
      Before (g.dependencyOrder ids) u v) ∧
    ((∀ x, ¬ Relation.TransGen (g.FeedsWithin ids) x x) →
      ∀ u ∈ ids, ∀ v ∈ ids, g.Feeds u v → Before (g.dependencyOrder ids) u v) ∧
    ((∀ u ∈ ids, ∀ v ∈ ids, u ≠ v → ¬ g.Feeds u v) → g.dependencyOrder ids = ids) := by
  obtain ⟨hff, hnd', hmem⟩ := dependencyOrder_sorting (g := g) ids
  refine ⟨(List.perm_ext_iff_of_nodup hnd' hnd).mpr hmem, fun u hu v _ huv hnot => ?_,
    fun hacyc u hu v hv huv => ?_, fun hiso => ?_⟩
  · exact hff u v hu huv hnot
  · -- feeding back would close a cycle through `u`
    exact hff u v hu huv fun hback => hacyc u (.head ⟨hu, hv, huv⟩ hback)
  · rw [dependencyOrder, foldl_place_isolated ids hiso ids [] [] (fun _ h => h) hnd
      (fun _ _ h => by simp at h)]
    simp

/-- Three calls fed in a ring, `a` by `c`, `b` by `a` and `c` by `b`, plus a self-loop on `a`
and an edge from outside the list. -/
def ringGraph : Graph where
  edges := [⟨"c", "out", "a", "input-0"⟩, ⟨"a", "out", "b", "input-0"⟩,
    ⟨"b", "out", "c", "input-0"⟩, ⟨"a", "out", "a", "input-1"⟩, ⟨"x", "out", "b", "input-1"⟩]

/-- The ring's ids are distinct, and ordering them obeys the statement. -/
theorem dependencyOrder_feeders_first_ring :
    ["a", "b", "c"].Nodup ∧
    ((ringGraph.dependencyOrder ["a", "b", "c"]).Perm ["a", "b", "c"] ∧
    (∀ u ∈ ["a", "b", "c"], ∀ v ∈ ["a", "b", "c"], ringGraph.Feeds u v →
      ¬ Relation.TransGen (ringGraph.FeedsWithin ["a", "b", "c"]) v u →
      Before (ringGraph.dependencyOrder ["a", "b", "c"]) u v) ∧
    ((∀ x, ¬ Relation.TransGen (ringGraph.FeedsWithin ["a", "b", "c"]) x x) →
      ∀ u ∈ ["a", "b", "c"], ∀ v ∈ ["a", "b", "c"], ringGraph.Feeds u v →
        Before (ringGraph.dependencyOrder ["a", "b", "c"]) u v) ∧
    ((∀ u ∈ ["a", "b", "c"], ∀ v ∈ ["a", "b", "c"], u ≠ v → ¬ ringGraph.Feeds u v) →
      ringGraph.dependencyOrder ["a", "b", "c"] = ["a", "b", "c"])) :=
  ⟨by decide, dependencyOrder_feeders_first ringGraph (by decide)⟩

example : ringGraph.dependencyOrder ["a", "b", "c"] = ["b", "c", "a"] := by decide

end Breadboard.Graph
