import Mathlib
import Breadboard.Header.Blocks
/-!
# Cutting constructor initializer lists

`cutInitializers` drops each constructor initializer list of a class body: from a lone `:`
after the `)` of a parameter list at the top level, up to the `{` or `;` that ends the list.
Its scanner shares one brace counter and one parenthesis counter between the text it keeps and
the lists it drops, looks one character ahead to tell a `:` from a `::`, and lets blanks
between the `)` and the `:` keep the list possible.

Main statement, `cutInitializers_sublist_idempotent`: cutting only deletes characters, and
cutting twice is cutting once.

The second half is a simulation (`CutState.Rescan`). A second pass over the text the first
pass wrote stays in step with the first pass over the original: outside a list both passes are
in the same state, so the same characters are kept, a `::` is seen as a `::` again, and a lone
`:` that the second pass could read as an opener was already dropped. While the first pass is
inside a list, which leaves nothing behind, the second pass waits at the state in which that
list's `:` was read, and the `{` or `;` that ends the list brings both passes to the same
state again.
-/

namespace Breadboard.Header

open Text

/-- The state in which a `:` opens an initializer list: at the top level, right after the `)`
that closes a parameter list. -/
def CutState.opening : CutState := { afterParams := true }

/-- The state after the `{` or `;` that ends an initializer list opened at the top level. -/
def CutState.closedBy (c : Char) : CutState := { braces := if c = '{' then 1 else 0 }

/-! ## Only deletions -/

/-- Every step of the cutter keeps the character in front or drops it. -/
theorem cutFrom_cons_cases (st : CutState) (c : Char) (rest : List Char) :
    ∃ st', cutFrom st (c :: rest) = c :: cutFrom st' rest ∨
      cutFrom st (c :: rest) = cutFrom st' rest := by
  simp only [cutFrom, cutFrom.keep]
  split_ifs
  -- inside a list only the `{` or `;` that ends it is kept
  · exact ⟨_, .inr rfl⟩
  · exact ⟨_, .inr rfl⟩
  · exact ⟨_, .inl rfl⟩
  · exact ⟨_, .inl rfl⟩
  · exact ⟨_, .inr rfl⟩
  -- outside one only the `:` that opens a list is dropped
  · exact ⟨_, .inl rfl⟩
  · exact ⟨_, .inl rfl⟩
  · exact ⟨_, .inl rfl⟩
  · exact ⟨_, .inl rfl⟩
  · exact ⟨_, .inl rfl⟩
  · exact ⟨_, .inr rfl⟩
  · exact ⟨_, .inl rfl⟩

/-- The cutter's output is a subsequence of its input, from any state. -/
theorem cutFrom_sublist (st : CutState) (cs : List Char) : (cutFrom st cs).Sublist cs := by
  induction cs generalizing st with
  | nil => simp [cutFrom]
  | cons c rest ih =>
    obtain ⟨st', h | h⟩ := cutFrom_cons_cases st c rest
    · rw [h]
      exact (ih st').cons_cons c
    · rw [h]
      exact (ih st').cons c

/-! ## One character at a time -/

section Steps

variable {st : CutState} {c : Char}

/-- Outside a list, a character that cannot open one is kept, and the state after it does not
depend on what follows. -/
theorem cutFrom_cons_kept (hi : st.inList = false)
    (hc : ¬ (c = ':' ∧ st.braces = 0 ∧ st.parens = 0 ∧ st.afterParams = true)) :
    ∃ st' : CutState, st'.inList = false ∧
      ∀ rest, cutFrom st (c :: rest) = c :: cutFrom st' rest := by
  -- only the `:` branch looks at what follows, and `hc` rules it out
  have hstart : ∀ rest : List Char, ¬ (c = ':' ∧ st.braces = 0 ∧ st.parens = 0 ∧
      st.afterParams = true ∧ rest.head? ≠ some ':') :=
    fun _ h => hc ⟨h.1, h.2.1, h.2.2.1, h.2.2.2.1⟩
  simp only [cutFrom, hi, Bool.false_eq_true, if_false, hstart, cutFrom.keep]
  split_ifs <;> refine ⟨_, ?_, fun _ => rfl⟩ <;> rfl

/-- A state outside a list, at the top level and right after a parameter list, is the one in
which a `:` opens a list. -/
theorem CutState.eq_opening (hi : st.inList = false) (hb : st.braces = 0) (hp : st.parens = 0)
    (ha : st.afterParams = true) : st = .opening := by
  cases st
  simp_all [CutState.opening]

/-- A `:` followed by another is the first half of a `::`: it is kept even where a lone `:`
would open a list. -/
theorem cutFrom_opening_colon_colon {rest : List Char} (h : rest.head? = some ':') :
    cutFrom .opening (':' :: rest) = ':' :: cutFrom {} rest := by
  have hcolon : isBlank ':' = false := rfl
  simp [cutFrom, cutFrom.keep, CutState.opening, h, hcolon]

/-- A lone `:` right after a parameter list opens an initializer list and is dropped. -/
theorem cutFrom_opening_colon {rest : List Char} (h : rest.head? ≠ some ':') :
    cutFrom .opening (':' :: rest) = cutFrom { inList := true } rest := by
  simp [cutFrom, CutState.opening, h]

/-- From the start state a leading `:` is kept: no parameter list has just closed. -/
theorem head_cutFrom_colon {rest : List Char} (h : rest.head? = some ':') :
    (cutFrom {} rest).head? = some ':' := by
  obtain ⟨r, rfl⟩ : ∃ r, rest = ':' :: r := by
    cases rest with
    | nil => cases h
    | cons d r => exact ⟨r, by simpa using h⟩
  obtain ⟨st₁, -, hkeep⟩ := @cutFrom_cons_kept {} ':' rfl (by simp)
  rw [hkeep]
  rfl

/-- Inside a list, a character other than the one that ends it is dropped, and the scan stays
inside the list. -/
theorem cutFrom_inside_drops {n : Nat} (hc : ¬ ((c = '{' ∨ c = ';') ∧ n = 0)) :
    ∃ m, ∀ rest, cutFrom { parens := n, inList := true } (c :: rest) =
      cutFrom { parens := m, inList := true } rest := by
  simp only [cutFrom, if_true, hc, if_false]
  split_ifs
  · exact ⟨_, fun _ => rfl⟩
  · exact ⟨_, fun _ => rfl⟩
  · exact ⟨_, fun _ => rfl⟩

/-- The `{` or `;` at parenthesis depth zero ends a list and is kept. -/
theorem cutFrom_inside_closes (hc : c = '{' ∨ c = ';') (rest : List Char) :
    cutFrom { inList := true } (c :: rest) = c :: cutFrom (.closedBy c) rest := by
  rcases hc with rfl | rfl <;> simp [cutFrom, CutState.closedBy]

/-- Right after a parameter list, a `{` or `;` is kept and leads to the state the end of a
list leads to. -/
theorem cutFrom_opening_closer (hc : c = '{' ∨ c = ';') (rest : List Char) :
    cutFrom .opening (c :: rest) = c :: cutFrom (.closedBy c) rest := by
  have hbrace : isBlank '{' = false := rfl
  have hsemi : isBlank ';' = false := rfl
  rcases hc with rfl | rfl <;>
    simp [cutFrom, cutFrom.keep, CutState.opening, CutState.closedBy, hbrace, hsemi]

end Steps

/-! ## A second pass -/

/-- How a second pass over the cutter's output stands against the first pass over its input:
in the same state outside an initializer list, and at the state in which the list's `:` was
read while the first pass is inside the list (a list opens only at the top level, so no brace
is open there). -/
inductive CutState.Rescan : CutState → CutState → Prop
  | outside {st : CutState} : st.inList = false → CutState.Rescan st st
  | inside (n : Nat) : CutState.Rescan { parens := n, inList := true } .opening

/-- The second pass over the output changes nothing: the induction is on the input, and every
step keeps the two passes in `CutState.Rescan`. -/
theorem cutFrom_cutFrom_of_rescan {st st' : CutState} (h : CutState.Rescan st st')
    (cs : List Char) : cutFrom st' (cutFrom st cs) = cutFrom st cs := by
  induction cs generalizing st st' with
  | nil => cases h <;> simp [cutFrom]
  | cons c rest ih =>
    cases h with
    | outside hi =>
      by_cases hstart : c = ':' ∧ st.braces = 0 ∧ st.parens = 0 ∧ st.afterParams = true
      · obtain ⟨rfl, hb, hp, ha⟩ := hstart
        obtain rfl := CutState.eq_opening hi hb hp ha
        by_cases hnext : rest.head? = some ':'
        · -- a `::` is kept whole, so the second pass meets the same `::`
          rw [cutFrom_opening_colon_colon hnext,
            cutFrom_opening_colon_colon (head_cutFrom_colon hnext), ih (.outside rfl)]
        · rw [cutFrom_opening_colon hnext, ih (.inside 0)]
      · obtain ⟨st₁, hi₁, hkeep⟩ := cutFrom_cons_kept hi hstart
        rw [hkeep, hkeep, ih (.outside hi₁)]
    | inside n =>
      by_cases hend : (c = '{' ∨ c = ';') ∧ n = 0
      · -- the list ends: both passes keep the character and meet again
        obtain ⟨hc, rfl⟩ := hend
        rw [cutFrom_inside_closes hc, cutFrom_opening_closer hc, ih (.outside rfl)]
      · obtain ⟨m, hdrop⟩ := cutFrom_inside_drops hend
        rw [hdrop, ih (.inside m)]

/-- **Cutting initializer lists only deletes, and cutting twice is cutting once.** The output
is a subsequence of the text, and a second cut finds no list left. -/
theorem cutInitializers_sublist_idempotent (s : String) :
    (cutInitializers s).toList.Sublist s.toList ∧
      cutInitializers (cutInitializers s) = cutInitializers s := by
  refine ⟨?_, ?_⟩
  · rw [cutInitializers, String.toList_ofList]
    exact cutFrom_sublist {} s.toList
  · simp only [cutInitializers, String.toList_ofList]
    rw [cutFrom_cutFrom_of_rescan (.outside rfl)]

/-- A constructor whose list holds a call and a string with a `:` reads as a plain body. -/
example : cutInitializers "Servo() : pin_(0), label_(\"a:b\") \x7b\x7d" = "Servo() \x7b\x7d" := by
  have hblank : isBlank ' ' = true := rfl
  simp [cutInitializers, cutFrom, cutFrom.keep, hblank]

end Breadboard.Header
