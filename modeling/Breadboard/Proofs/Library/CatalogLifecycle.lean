import Mathlib.Data.List.Nodup
import Breadboard.Library.Catalog

/-!
# The catalog over a session

A catalog starts with the core library, active, and changes only through `add`, `remove`,
`activate` and `deactivate`; each call may fail, and the session goes on with the catalog the
call leaves either way (`Catalog.Reachable`). This file proves what every such catalog looks
like and what each call does on it.

* `Catalog.WellFormed`: library names are distinct, the core library comes first and is
  active, and the active list names registered libraries, each once. Every reachable catalog
  is well formed (`Catalog.Reachable.wellFormed`), from one lemma per call.
* `Catalog.add_eq`, `Catalog.remove_eq`, `Catalog.activate_eq`: the outcome of each call, the
  error it reports and the catalog it leaves. Every check comes before the first change, so a
  failing call leaves the catalog as it was. Removing takes out a library by its position;
  since names are distinct, that is dropping the one library with the name.
* `Catalog.reachable_invariants`: the invariant, and what follows from it for the calls: a
  library just added is inactive, and a name just removed is neither registered nor active.
* `Catalog.reachable_call_outcomes`: the outcome of every call on a reachable catalog.
-/

namespace Breadboard.Catalog

variable {c : Catalog}

/-- A library with the given name is registered. -/
def Registered (c : Catalog) (name : String) : Prop :=
  ∃ l ∈ c.libraries, l.name = name

instance (c : Catalog) (name : String) : Decidable (c.Registered name) :=
  inferInstanceAs (Decidable (∃ l ∈ c.libraries, l.name = name))

theorem find?_isSome_iff {name : String} : (c.find? name).isSome ↔ c.Registered name := by
  simp [find?, Registered]

theorem find?_eq_none_iff {name : String} : c.find? name = none ↔ ¬ c.Registered name := by
  rw [← find?_isSome_iff, Option.not_isSome_iff_eq_none]

theorem isActive_iff {name : String} : c.isActive name = true ↔ name ∈ c.active := by
  simp [isActive]

/-- Dropping a name from the active list deactivates that name and no other. -/
theorem isActive_drop {ls : List Library} {act : List String} {name x : String} :
    (Catalog.mk ls (act.filter (· != name))).isActive x = true ↔ x ∈ act ∧ x ≠ name := by
  simp [isActive, List.mem_filter]

/-- The catalogs a session reaches: a new one, and whatever a call leaves, whether the call
succeeds or fails. -/
inductive Reachable : Catalog → Prop
  | new : Reachable Catalog.new
  | add {c : Catalog} (l : Library) : Reachable c → Reachable (c.add l).2
  | remove {c : Catalog} (name : String) : Reachable c → Reachable (c.remove name).2
  | activate {c : Catalog} (name : String) : Reachable c → Reachable (c.activate name).2
  | deactivate {c : Catalog} (name : String) : Reachable c → Reachable (c.deactivate name).2

/-- What holds of every reachable catalog. -/
structure WellFormed (c : Catalog) : Prop where
  names_nodup : (c.libraries.map (·.name)).Nodup
  core_first : c.libraries.head? = some Library.core
  core_active : c.isActive Library.coreName = true
  active_registered : ∀ name ∈ c.active, c.Registered name
  active_nodup : c.active.Nodup

/-! ## The outcome of each call -/

theorem add_eq (c : Catalog) (l : Library) :
    c.add l = if c.Registered l.name then (.error (.duplicateLibrary l.name), c)
      else (.ok (), ⟨c.libraries ++ [l], c.active⟩) := by
  simp only [add, find?_isSome_iff]

theorem activate_eq (c : Catalog) (name : String) :
    c.activate name = if ¬ c.Registered name then (.error (.unknownLibrary name), c)
      else if c.isActive name then (.ok (), c) else (.ok (), ⟨c.libraries, c.active ++ [name]⟩) := by
  simp only [activate, Option.isNone_iff_eq_none, find?_eq_none_iff]

/-- In libraries with distinct names, the one at the position where a name is first found is
the one `find?` gives, and taking it out drops every library with that name. -/
theorem eraseIdx_findIdx? {ls : List Library} {name : String} {i : Nat}
    (hnd : (ls.map (·.name)).Nodup) (h : ls.findIdx? (·.name == name) = some i) :
    ls.eraseIdx i = ls.filter (·.name != name) ∧
      ls.find? (·.name == name) = some (ls[i]?.getD default) := by
  induction ls generalizing i with
  | nil => simp at h
  | cons x xs ih =>
    rw [List.map_cons, List.nodup_cons] at hnd
    by_cases hx : x.name = name
    · -- the first library has the name, so no other has it
      have hi : i = 0 := by simpa [List.findIdx?_cons, hx] using h.symm
      subst hi
      have hrest : xs.filter (·.name != name) = xs := List.filter_eq_self.mpr fun y hy => by
        have hne : y.name ≠ x.name := fun he => hnd.1 (List.mem_map.mpr ⟨y, hy, he⟩)
        simpa [hx] using hne
      simp [hx, hrest]
    · obtain ⟨j, hj, rfl⟩ : ∃ j, xs.findIdx? (·.name == name) = some j ∧ j + 1 = i := by
        simpa [List.findIdx?_cons, hx] using h
      obtain ⟨he, hf⟩ := ih hnd.2 hj
      simp [hx, he, hf]

/-- Removing from a catalog whose library names are distinct. -/
theorem remove_eq (hnd : (c.libraries.map (·.name)).Nodup) (name : String) :
    c.remove name = if name = Library.coreName then (.error (.coreProtected name), c)
      else match c.find? name with
        | none => (.error (.unknownLibrary name), c)
        | some l => (.ok l, ⟨c.libraries.filter (·.name != name), c.active.filter (· != name)⟩) := by
  unfold remove
  split
  · rfl
  · cases hi : c.libraries.findIdx? (·.name == name) with
    | none =>
      have hf : c.find? name = none := by
        rw [find?, List.find?_eq_none]
        simpa [List.findIdx?_eq_none_iff] using hi
      simp only [hf]
    | some i =>
      obtain ⟨he, hf⟩ := eraseIdx_findIdx? hnd hi
      rw [find?, hf]
      simp only [he]

/-! ## Every reachable catalog is well formed -/

theorem wellFormed_new : Catalog.new.WellFormed where
  names_nodup := List.nodup_singleton _
  core_first := rfl
  core_active := by decide
  active_registered := fun name h => by
    obtain rfl : name = Library.coreName := List.mem_singleton.mp h
    exact ⟨Library.core, List.mem_singleton_self _, rfl⟩
  active_nodup := List.nodup_singleton _

/-- Adding registers a library under a new name and activates nothing. -/
theorem WellFormed.add (hc : c.WellFormed) (l : Library) : (c.add l).2.WellFormed := by
  rw [add_eq]
  split
  · exact hc
  · rename_i hnew
    refine ⟨?_, ?_, hc.core_active, fun name h => ?_, hc.active_nodup⟩
    · rw [List.map_append, List.nodup_append]
      refine ⟨hc.names_nodup, List.nodup_singleton _, fun a ha b hb => ?_⟩
      obtain ⟨x, hx, rfl⟩ := List.mem_map.mp ha
      obtain rfl : b = l.name := by simpa using hb
      exact fun he => hnew ⟨x, hx, he⟩
    · rw [List.head?_append, hc.core_first]
      rfl
    · obtain ⟨x, hx, hname⟩ := hc.active_registered name h
      exact ⟨x, List.mem_append_left _ hx, hname⟩

/-- Removing drops one library other than the core one, and its name from the active list. -/
theorem WellFormed.remove (hc : c.WellFormed) (name : String) : (c.remove name).2.WellFormed := by
  rw [remove_eq hc.names_nodup]
  split
  · exact hc
  · rename_i hcore
    split
    · exact hc
    · obtain ⟨rest, hls⟩ : ∃ rest, c.libraries = Library.core :: rest :=
        List.head?_eq_some_iff.mp hc.core_first
      have hkeep : (Library.core.name != name) = true := by
        simpa [Library.core] using Ne.symm hcore
      dsimp only
      refine ⟨?_, ?_, ?_, fun a h => ?_, hc.active_nodup.filter _⟩
      · exact (List.Sublist.map _ List.filter_sublist).nodup hc.names_nodup
      · rw [hls, List.filter_cons, if_pos hkeep]
        rfl
      · exact isActive_drop.mpr ⟨isActive_iff.mp hc.core_active, Ne.symm hcore⟩
      · obtain ⟨ha, hne⟩ : a ∈ c.active ∧ a ≠ name := by simpa [List.mem_filter] using h
        obtain ⟨x, hx, rfl⟩ := hc.active_registered a ha
        exact ⟨x, List.mem_filter.mpr ⟨hx, by simpa using hne⟩, rfl⟩

/-- Activating appends a registered name that is not active yet. -/
theorem WellFormed.activate (hc : c.WellFormed) (name : String) :
    (c.activate name).2.WellFormed := by
  rw [activate_eq]
  split
  · exact hc
  · rename_i hreg
    split
    · exact hc
    · rename_i hinactive
      have hnot : name ∉ c.active := fun h => hinactive (isActive_iff.mpr h)
      refine ⟨hc.names_nodup, hc.core_first, ?_, fun a h => ?_, ?_⟩
      · exact isActive_iff.mpr (List.mem_append_left _ (isActive_iff.mp hc.core_active))
      · rcases List.mem_append.mp h with h | h
        · exact hc.active_registered a h
        · obtain rfl : a = name := List.mem_singleton.mp h
          exact not_not.mp hreg
      · exact hc.active_nodup.append (List.nodup_singleton _)
          (List.disjoint_singleton.mpr hnot)

/-- Deactivating drops a name other than the core one from the active list. -/
theorem WellFormed.deactivate (hc : c.WellFormed) (name : String) :
    (c.deactivate name).2.WellFormed := by
  unfold Catalog.deactivate
  split
  · exact hc
  · rename_i hcore
    refine ⟨hc.names_nodup, hc.core_first, ?_, fun a h => ?_, hc.active_nodup.filter _⟩
    · exact isActive_drop.mpr ⟨isActive_iff.mp hc.core_active, Ne.symm hcore⟩
    · exact hc.active_registered a (List.mem_filter.mp h).1

/-- Every reachable catalog is well formed: by induction on the calls that reach it, one
lemma per call. -/
theorem Reachable.wellFormed (hc : c.Reachable) : c.WellFormed := by
  induction hc with
  | new => exact wellFormed_new
  | add l _ ih => exact ih.add l
  | remove name _ ih => exact ih.remove name
  | activate name _ ih => exact ih.activate name
  | deactivate name _ ih => exact ih.deactivate name

/-! ## What the invariant gives the calls -/

/-- A library just added is inactive: its name was not registered, so it was not active. -/
theorem WellFormed.add_inactive (hc : c.WellFormed) {l : Library} {c' : Catalog}
    (h : c.add l = (.ok (), c')) : c'.isActive l.name = false := by
  rw [add_eq] at h
  split at h
  · cases h
  · rename_i hnew
    cases h
    exact Bool.eq_false_iff.mpr fun ha => hnew (hc.active_registered _ (isActive_iff.mp ha))

/-- A name just removed names no library and is not active. -/
theorem WellFormed.remove_gone (hc : c.WellFormed) {name : String} {l : Library} {c' : Catalog}
    (h : c.remove name = (.ok l, c')) : c'.find? name = none ∧ c'.isActive name = false := by
  rw [remove_eq hc.names_nodup] at h
  split at h
  · cases h
  · split at h
    · cases h
    · cases h
      refine ⟨?_, ?_⟩
      · rw [find?, List.find?_eq_none]
        intro x hx
        simpa using (List.mem_filter.mp hx).2
      · exact Bool.eq_false_iff.mpr fun ha => (isActive_drop.mp ha).2 rfl

/-- **Invariants of a session.** In every catalog a session reaches, library names are
distinct, the core library comes first and is active, and the active list names registered
libraries, each once. So a library that `add` has just registered is inactive, and a name that
`remove` has just taken out names no library and is not active. -/
theorem reachable_invariants (hc : c.Reachable) :
    c.WellFormed ∧
    (∀ (l : Library) (c' : Catalog), c.add l = (.ok (), c') → c'.isActive l.name = false) ∧
    (∀ (name : String) (l : Library) (c' : Catalog), c.remove name = (.ok l, c') →
      c'.find? name = none ∧ c'.isActive name = false) :=
  ⟨hc.wellFormed, fun _ _ h => hc.wellFormed.add_inactive h,
    fun _ _ _ h => hc.wellFormed.remove_gone h⟩

/-- A library of servo functions, with no functions of its own. -/
def servoLibrary : Library := Library.named "Servo" "#include <Servo.h>"

/-- The catalog after registering the servo library. -/
def servoCatalog : Catalog := (Catalog.new.add servoLibrary).2

/-- The catalog holding the servo library is reachable, and the invariants hold of it. -/
theorem reachable_invariants_servo :
    servoCatalog.Reachable ∧
    (servoCatalog.WellFormed ∧
      (∀ (l : Library) (c' : Catalog), servoCatalog.add l = (.ok (), c') →
        c'.isActive l.name = false) ∧
      (∀ (name : String) (l : Library) (c' : Catalog), servoCatalog.remove name = (.ok l, c') →
        c'.find? name = none ∧ c'.isActive name = false)) :=
  ⟨.add _ .new, reachable_invariants (.add _ .new)⟩

/-- **The outcome of every call.** On a reachable catalog, `add` fails exactly when the name is
taken and otherwise appends the library; `remove` refuses the core library, fails on an
unregistered name, and otherwise drops the one library with the name, keeping the others in
order, drops the name from the active list and returns the library; `activate` fails exactly
on an unregistered name and appends a name that is not active yet; `deactivate` refuses only
the core library. A failing call leaves the catalog as it was. -/
theorem reachable_call_outcomes (hc : c.Reachable) (l : Library) (name : String) :
    c.add l = (if c.Registered l.name then (.error (.duplicateLibrary l.name), c)
      else (.ok (), ⟨c.libraries ++ [l], c.active⟩)) ∧
    c.remove name = (if name = Library.coreName then (.error (.coreProtected name), c)
      else match c.find? name with
        | none => (.error (.unknownLibrary name), c)
        | some l => (.ok l, ⟨c.libraries.filter (·.name != name), c.active.filter (· != name)⟩)) ∧
    c.activate name = (if ¬ c.Registered name then (.error (.unknownLibrary name), c)
      else if c.isActive name then (.ok (), c) else (.ok (), ⟨c.libraries, c.active ++ [name]⟩)) ∧
    c.deactivate name = (if name = Library.coreName then (.error (.coreProtected name), c)
      else (.ok (), ⟨c.libraries, c.active.filter (· != name)⟩)) :=
  ⟨add_eq c l, remove_eq hc.wellFormed.names_nodup name, activate_eq c name, rfl⟩

/-- The calls on the catalog holding the servo library behave as stated. -/
theorem reachable_call_outcomes_servo :
    servoCatalog.Reachable ∧
    servoCatalog.add servoLibrary = (if servoCatalog.Registered servoLibrary.name
      then (.error (.duplicateLibrary servoLibrary.name), servoCatalog)
      else (.ok (), ⟨servoCatalog.libraries ++ [servoLibrary], servoCatalog.active⟩)) ∧
    servoCatalog.remove "Servo" = (if "Servo" = Library.coreName
      then (.error (.coreProtected "Servo"), servoCatalog)
      else match servoCatalog.find? "Servo" with
        | none => (.error (.unknownLibrary "Servo"), servoCatalog)
        | some l => (.ok l, ⟨servoCatalog.libraries.filter (·.name != "Servo"),
            servoCatalog.active.filter (· != "Servo")⟩)) ∧
    servoCatalog.activate "Servo" = (if ¬ servoCatalog.Registered "Servo"
      then (.error (.unknownLibrary "Servo"), servoCatalog)
      else if servoCatalog.isActive "Servo" then (.ok (), servoCatalog)
      else (.ok (), ⟨servoCatalog.libraries, servoCatalog.active ++ ["Servo"]⟩)) ∧
    servoCatalog.deactivate "Servo" = (if "Servo" = Library.coreName
      then (.error (.coreProtected "Servo"), servoCatalog)
      else (.ok (), ⟨servoCatalog.libraries, servoCatalog.active.filter (· != "Servo")⟩)) :=
  ⟨.add _ .new, reachable_call_outcomes (.add _ .new) servoLibrary "Servo"⟩

end Breadboard.Catalog
