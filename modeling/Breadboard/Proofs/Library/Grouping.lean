import Mathlib.Data.String.Basic
import Breadboard.Library.Catalog

/-!
# The palette's grouping by category

The palette lists the functions of the active libraries (`Catalog.functions`) and groups them
by category (`Catalog.byCategory`), walking the libraries through separate code. This file
proves that the two agree, for every catalog.

The grouping is a map from categories to functions kept as a list of entries sorted by
category; adding a function (`addToCategory`) appends it under its category, opening the
category where it belongs when it is new. As for any sorted map:

* `Canon`: categories strictly increasing, none without functions; `group acc q`: the functions
  under `q`, none when it is absent. Adding keeps the form (`canon_addToCategory`), appends under
  one category and changes no other (`group_addToCategory`), and adds the function to the
  grouped ones (`perm_addToCategory`); a canonical grouping is fixed by its groups
  (`mem_iff_group`).
* `listedUnder c k`: the functions of the active libraries listed under `k`, in order: a free
  function under its own category or else its library's display name, a method under its own
  category or else its class's name. Constructors are listed nowhere.
* `byCategory_partitions`: every function of the palette sits in exactly one category, the
  categories hold the palette's functions and nothing else, each category lists exactly
  `listedUnder c k`, and its functions keep their order from the palette. Removing every
  constructor (`withoutConstructors`) changes neither the palette nor the grouping.
-/

namespace Breadboard.Catalog

/-! ## Categories as a sorted map -/

/-- The functions under category `q`: those of its entry, none without one. -/
def group : List (String × List FunctionDecl) → String → List FunctionDecl
  | [], _ => []
  | (k, fs) :: rest, q => if k = q then fs else group rest q

/-- A grouping in canonical form: categories strictly increasing, none without functions. -/
def Canon (acc : List (String × List FunctionDecl)) : Prop :=
  (acc.map Prod.fst).Pairwise (· < ·) ∧ ∀ e ∈ acc, e.2 ≠ []

variable {acc rest : List (String × List FunctionDecl)} {cat k q : String} {f : FunctionDecl}
  {fs : List FunctionDecl}

theorem canon_nil : Canon [] := ⟨List.Pairwise.nil, fun _ h => absurd h List.not_mem_nil⟩

theorem canon_cons : Canon ((k, fs) :: rest) ↔ (∀ e ∈ rest, k < e.1) ∧ fs ≠ [] ∧ Canon rest := by
  unfold Canon
  simp only [List.map_cons, List.pairwise_cons, List.mem_map, List.mem_cons, forall_eq_or_imp]
  constructor
  · rintro ⟨⟨h1, h2⟩, h3, h4⟩
    exact ⟨fun e he => h1 _ ⟨e, he, rfl⟩, h3, h2, h4⟩
  · rintro ⟨h1, h3, h2, h4⟩
    exact ⟨⟨fun a ⟨e, he, hea⟩ => hea ▸ h1 e he, h2⟩, h3, h4⟩

theorem group_eq_nil_of_forall_ne (h : ∀ e ∈ acc, e.1 ≠ q) : group acc q = [] := by
  induction acc with
  | nil => rfl
  | cons e rest ih =>
    obtain ⟨k, fs⟩ := e
    simp only [group]
    rw [if_neg (h (k, fs) List.mem_cons_self)]
    exact ih fun e he => h e (List.mem_cons_of_mem _ he)

/-- Below the first category, the rest holds nothing. -/
theorem group_tail_of_le (hc : Canon ((k, fs) :: rest)) (hq : q ≤ k) : group rest q = [] :=
  group_eq_nil_of_forall_ne fun e he heq =>
    absurd (heq ▸ (canon_cons.mp hc).1 e he) (not_lt.mpr hq)

/-- An entry of a canonical grouping holds the functions of its category. -/
theorem group_of_mem (hc : Canon acc) (h : (q, fs) ∈ acc) : group acc q = fs := by
  induction acc with
  | nil => exact absurd h List.not_mem_nil
  | cons e rest ih =>
    obtain ⟨k, gs⟩ := e
    obtain ⟨hlt, -, hrest⟩ := canon_cons.mp hc
    simp only [group]
    rcases List.mem_cons.mp h with h | h
    · obtain ⟨rfl, rfl⟩ := Prod.mk.inj h
      exact if_pos rfl
    · -- a later entry has a larger category than the first
      rw [if_neg (ne_of_lt (hlt _ h))]
      exact ih hrest h

theorem mem_of_group_ne_nil (h : group acc q ≠ []) : (q, group acc q) ∈ acc := by
  induction acc with
  | nil => exact absurd rfl h
  | cons e rest ih =>
    obtain ⟨k, gs⟩ := e
    simp only [group] at h ⊢
    split
    · rename_i hk
      subst hk
      exact List.mem_cons_self
    · rename_i hk
      rw [if_neg hk] at h
      exact List.mem_cons_of_mem _ (ih h)

/-- A canonical grouping is fixed by its groups: its entries are the categories with functions,
each with its functions. -/
theorem mem_iff_group (hc : Canon acc) : (q, fs) ∈ acc ↔ fs ≠ [] ∧ group acc q = fs := by
  constructor
  · intro h
    exact ⟨hc.2 _ h, group_of_mem hc h⟩
  · rintro ⟨hne, rfl⟩
    exact mem_of_group_ne_nil hne

/-! ## Adding a function -/

/-- Adding opens no category but the function's own. -/
theorem fst_mem_addToCategory {e : String × List FunctionDecl} (h : e ∈ addToCategory cat f acc) :
    e.1 = cat ∨ e.1 ∈ acc.map Prod.fst := by
  induction acc with
  | nil =>
    simp only [addToCategory, List.mem_singleton] at h
    exact .inl (by rw [h])
  | cons x rest ih =>
    obtain ⟨k, gs⟩ := x
    simp only [addToCategory] at h
    split at h
    · rcases List.mem_cons.mp h with rfl | h
      · exact .inl rfl
      · exact .inr (List.mem_map_of_mem h)
    · split at h
      · rcases List.mem_cons.mp h with rfl | h
        · exact .inr (by simp)
        · exact .inr (List.mem_map_of_mem (List.mem_cons_of_mem _ h))
      · rcases List.mem_cons.mp h with rfl | h
        · exact .inr (by simp)
        · exact (ih h).imp_right fun h' => List.mem_cons_of_mem _ h'

theorem canon_addToCategory (hc : Canon acc) : Canon (addToCategory cat f acc) := by
  induction acc with
  | nil => exact canon_cons.mpr ⟨fun _ h => absurd h List.not_mem_nil, by simp, canon_nil⟩
  | cons x rest ih =>
    obtain ⟨k, gs⟩ := x
    obtain ⟨hlt, hne, hrest⟩ := canon_cons.mp hc
    simp only [addToCategory]
    split
    · rename_i hck
      refine canon_cons.mpr ⟨fun e he => ?_, by simp, hc⟩
      rcases List.mem_cons.mp he with rfl | he
      · exact hck
      · exact lt_trans hck (hlt e he)
    · split
      · rename_i hck
        exact canon_cons.mpr ⟨hlt, by simp, hrest⟩
      · rename_i hck1 hck2
        -- the new category comes after the first one
        have hgt : k < cat := lt_of_le_of_ne (not_lt.mp hck1) (Ne.symm hck2)
        refine canon_cons.mpr ⟨fun e he => ?_, hne, ih hrest⟩
        rcases fst_mem_addToCategory he with h | h
        · exact h ▸ hgt
        · obtain ⟨e', he', heq⟩ := List.mem_map.mp h
          exact heq ▸ hlt e' he'

/-- Adding a function appends it under its category and changes no other. -/
theorem group_addToCategory (hc : Canon acc) (q : String) :
    group (addToCategory cat f acc) q = if q = cat then group acc q ++ [f] else group acc q := by
  induction acc with
  | nil =>
    by_cases hq : q = cat
    · subst hq
      simp [addToCategory, group]
    · simp [addToCategory, group, hq, Ne.symm hq]
  | cons x rest ih =>
    obtain ⟨k, gs⟩ := x
    have hrest := (canon_cons.mp hc).2.2
    simp only [addToCategory]
    split
    · rename_i hck
      by_cases hq : q = cat
      · subst hq
        simp only [group, if_true]
        rw [if_neg (ne_of_gt hck), group_tail_of_le hc (le_of_lt hck), List.nil_append]
      · simp only [group, if_neg (Ne.symm hq), if_neg hq]
    · split
      · rename_i hck
        subst hck
        by_cases hq : q = cat
        · subst hq
          simp [group]
        · simp [group, hq, Ne.symm hq]
      · rename_i hck1 hck2
        simp only [group]
        rw [ih hrest]
        by_cases hkq : k = q
        · subst hkq
          rw [if_pos rfl, if_pos rfl, if_neg (Ne.symm hck2)]
        · rw [if_neg hkq, if_neg hkq]

/-- Adding a function adds it to the grouped functions, and nothing else. -/
theorem perm_addToCategory :
    ((addToCategory cat f acc).flatMap Prod.snd).Perm (acc.flatMap Prod.snd ++ [f]) := by
  induction acc with
  | nil => simp [addToCategory]
  | cons x rest ih =>
    obtain ⟨k, gs⟩ := x
    simp only [addToCategory]
    split
    · -- the function opens a category in front
      simp only [List.flatMap_cons, List.singleton_append, List.append_assoc]
      rw [← List.append_assoc]
      exact (List.perm_append_singleton f _).symm
    · split
      · simp only [List.flatMap_cons, List.append_assoc, List.singleton_append]
        exact List.Perm.append_left gs (List.perm_append_singleton f _).symm
      · simpa using List.Perm.append_left gs ih

/-! ## Adding many functions -/

variable (E : List (String × FunctionDecl))

theorem canon_foldl (hc : Canon acc) :
    Canon (E.foldl (fun acc e => addToCategory e.1 e.2 acc) acc) := by
  induction E generalizing acc with
  | nil => exact hc
  | cons e E ih => exact ih (canon_addToCategory hc)

/-- Adding functions appends each under its category, in the order they come. -/
theorem group_foldl (hc : Canon acc) (q : String) :
    group (E.foldl (fun acc e => addToCategory e.1 e.2 acc) acc) q =
      group acc q ++ (E.filter (·.1 == q)).map Prod.snd := by
  induction E generalizing acc with
  | nil => simp
  | cons e E ih =>
    rw [List.foldl_cons, ih (canon_addToCategory hc), group_addToCategory hc]
    by_cases hq : q = e.1
    · simp [hq]
    · simp [hq, Ne.symm hq]

theorem perm_foldl :
    ((E.foldl (fun acc e => addToCategory e.1 e.2 acc) acc).flatMap Prod.snd).Perm
      (acc.flatMap Prod.snd ++ E.map Prod.snd) := by
  induction E generalizing acc with
  | nil => simp
  | cons e E ih =>
    rw [List.foldl_cons, List.map_cons]
    refine ih.trans ?_
    simpa using List.Perm.append_right (E.map Prod.snd) perm_addToCategory

/-! ## The palette -/

variable (c : Catalog)

/-- The functions of the active libraries listed under a category, in order: a library's free
functions whose own category, or else the library's display name, is `k`, then for each of its
classes the methods whose own category, or else the class's name, is `k`. -/
def listedUnder (k : String) : List FunctionDecl :=
  c.activeLibraries.flatMap fun l =>
    l.functions.filter (fun fn => fn.category.getD l.displayName == k) ++
      l.classes.flatMap fun cls => cls.methods.filter (fun m => m.category.getD cls.name == k)

theorem byCategory_eq :
    c.byCategory = (c.activeLibraries.flatMap Library.categorized).foldl
      (fun acc e => addToCategory e.1 e.2 acc) [] :=
  rfl

/-- The categorized functions of the active libraries are the palette's, in order. -/
theorem map_snd_categorized :
    (c.activeLibraries.flatMap Library.categorized).map Prod.snd = c.functions.map Prod.snd := by
  simp [functions, Library.categorized, Library.allFunctions, List.map_flatMap, Function.comp_def]

/-- The categorized functions under a category are the ones listed under it. -/
theorem filter_categorized (k : String) :
    ((c.activeLibraries.flatMap Library.categorized).filter (·.1 == k)).map Prod.snd =
      c.listedUnder k := by
  simp [listedUnder, Library.categorized, List.filter_flatMap, List.map_flatMap, List.filter_map,
    Function.comp_def]

/-! ## Constructors are listed nowhere -/

/-- A library whose classes have no constructors. -/
def dropConstructors (l : Library) : Library :=
  { l with classes := l.classes.map fun cls => { cls with constructors := [] } }

/-- The catalog with the constructors of every class removed. -/
def withoutConstructors : Catalog :=
  ⟨c.libraries.map dropConstructors, c.active⟩

theorem activeLibraries_withoutConstructors :
    c.withoutConstructors.activeLibraries = c.activeLibraries.map dropConstructors := by
  -- dropping constructors keeps every name, so the same libraries are active
  simp only [withoutConstructors, activeLibraries, List.filter_map]
  rfl

theorem categorized_dropConstructors (l : Library) :
    (dropConstructors l).categorized = l.categorized := by
  simp [dropConstructors, Library.categorized, List.flatMap_map]

theorem allFunctions_dropConstructors (l : Library) :
    (dropConstructors l).allFunctions = l.allFunctions := by
  simp [dropConstructors, Library.allFunctions, List.flatMap_map]

theorem byCategory_withoutConstructors : c.withoutConstructors.byCategory = c.byCategory := by
  rw [byCategory_eq, byCategory_eq, activeLibraries_withoutConstructors, List.flatMap_map]
  simp only [categorized_dropConstructors]

theorem functions_withoutConstructors :
    c.withoutConstructors.functions.map Prod.snd = c.functions.map Prod.snd := by
  simp [functions, activeLibraries_withoutConstructors, List.map_flatMap, List.flatMap_map,
    Function.comp_def, allFunctions_dropConstructors]

/-- **Grouping the palette by category.** The categories hold exactly the palette's functions,
as a multiset, in strictly increasing order of category. Under each category are the functions
listed under it, in their order in the palette, and a category is present exactly when it lists
a function. Neither the palette nor the grouping depends on any class's constructors. -/
theorem byCategory_partitions :
    (c.byCategory.flatMap Prod.snd).Perm (c.functions.map Prod.snd) ∧
    (c.byCategory.map Prod.fst).Pairwise (· < ·) ∧
    (∀ k fs, (k, fs) ∈ c.byCategory ↔ fs ≠ [] ∧ fs = c.listedUnder k) ∧
    (∀ k fs, (k, fs) ∈ c.byCategory → fs.Sublist (c.functions.map Prod.snd)) ∧
    (c.withoutConstructors.byCategory = c.byCategory ∧
      c.withoutConstructors.functions.map Prod.snd = c.functions.map Prod.snd) := by
  have hcanon : Canon c.byCategory := byCategory_eq c ▸ canon_foldl _ canon_nil
  have hgroup : ∀ k, group c.byCategory k = c.listedUnder k := fun k => by
    rw [byCategory_eq, group_foldl _ canon_nil, filter_categorized]
    rfl
  have hmem : ∀ k fs, (k, fs) ∈ c.byCategory ↔ fs ≠ [] ∧ fs = c.listedUnder k := fun k fs => by
    rw [mem_iff_group hcanon, hgroup, eq_comm]
  refine ⟨?_, hcanon.1, hmem, fun k fs h => ?_,
    byCategory_withoutConstructors c, functions_withoutConstructors c⟩
  · have h : (c.byCategory.flatMap Prod.snd).Perm
        (([] : List (String × List FunctionDecl)).flatMap Prod.snd ++
          (c.activeLibraries.flatMap Library.categorized).map Prod.snd) :=
      perm_foldl _
    rw [map_snd_categorized] at h
    simpa using h
  · -- the listed functions are a filter of the palette's
    rw [((hmem k fs).mp h).2, ← filter_categorized, ← map_snd_categorized]
    exact (List.filter_sublist).map _

end Breadboard.Catalog
