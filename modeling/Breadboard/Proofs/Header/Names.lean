import Mathlib
import Breadboard.Proofs.Header.Rendering
import Breadboard.Proofs.Text.Scan

/-!
# Names and type spellings in header text

The characters a name or a type spelling is made of, and what the reader's character tests
say of them: a character of an identifier is a word character, no blank, and none of the
punctuation the reader splits at; a spelling adds only the blank and `*`.
-/

namespace Breadboard.Header

open Text

/-! ## Identifier characters -/

/-- A character of an ASCII identifier: a letter, a digit or `_`. -/
def IsIdentChar (c : Char) : Prop :=
  c.isAlphanum = true ∨ c = '_'

/-- An ASCII letter or digit is a digit, an upper-case or a lower-case letter by code. -/
theorem toNat_of_isAlphanum {c : Char} (h : c.isAlphanum = true) :
    (48 ≤ c.toNat ∧ c.toNat ≤ 57) ∨ (65 ≤ c.toNat ∧ c.toNat ≤ 90) ∨
      (97 ≤ c.toNat ∧ c.toNat ≤ 122) := by
  have hv : c.toNat = c.val.toNat := rfl
  simp only [Char.isAlphanum, Char.isAlpha, Char.isUpper, Char.isLower, Char.isDigit,
    Bool.or_eq_true, Bool.and_eq_true, decide_eq_true_eq, UInt32.le_iff_toNat_le] at h
  simp at h
  omega

theorem IsIdentChar.isBlank_eq_false {c : Char} (h : IsIdentChar c) : isBlank c = false := by
  rcases h with h | rfl
  · have := toNat_of_isAlphanum h
    simp only [isBlank]
    simp
    omega
  · decide

theorem IsIdentChar.isWordChar {c : Char} (h : IsIdentChar c) : isWordChar c = true := by
  rcases h with h | rfl
  · have := toNat_of_isAlphanum h
    rw [isWordChar_of_ascii (by omega)]
    simp [isAsciiWordChar, h]
  · decide

/-- An identifier character is none of the characters that are neither letters, digits nor
`_`. -/
theorem IsIdentChar.ne {c d : Char} (hc : IsIdentChar c) (hd : d.isAlphanum = false)
    (hd' : d ≠ '_') : c ≠ d := by
  rintro rfl
  rcases hc with h | h
  · rw [h] at hd
    cases hd
  · exact hd' h

theorem isIdentifier_chars {cs : List Char} (h : isIdentifier cs = true) :
    ∀ c ∈ cs, IsIdentChar c := by
  cases cs with
  | nil => simp [isIdentifier] at h
  | cons c cs =>
    simp only [isIdentifier, Bool.and_eq_true, Bool.or_eq_true, beq_iff_eq, List.all_eq_true]
      at h
    intro d hd
    rcases List.mem_cons.mp hd with rfl | hd
    · rcases h.1 with h | h
      · exact .inl (by simp [Char.isAlphanum, h])
      · exact .inr h
    · exact h.2 d hd

theorem IsName.chars {s : String} (h : IsName s) : ∀ c ∈ s.toList, IsIdentChar c :=
  isIdentifier_chars h.1

theorem isIdentifier_ne_nil {cs : List Char} (h : isIdentifier cs = true) : cs ≠ [] := by
  rintro rfl
  simp [isIdentifier] at h

theorem IsName.ne_nil {s : String} (h : IsName s) : s.toList ≠ [] :=
  isIdentifier_ne_nil h.1

/-- A name is not one of the listed keywords. -/
theorem IsName.not_mem {s : String} (h : IsName s) {ws : List String}
    (hws : ∀ w ∈ ws, w ∈ cppKeywords) : s ∉ ws :=
  fun hs => h.2 (hws s hs)

/-! ## Type spellings -/

/-- A character of a type spelling: an ASCII letter or digit, `_`, a blank or `*`. -/
def isSpellingChar (c : Char) : Bool :=
  c.isAlphanum || c == '_' || c == ' ' || c == '*'

theorem spelling_chars (t : ValueType) : t.spelling.toList.all isSpellingChar = true := by
  cases t <;> rfl

/-- A spelling character is none of the characters that are neither letters, digits, `_`,
a space nor `*`. -/
theorem ne_of_isSpellingChar {c d : Char} (hc : isSpellingChar c = true)
    (hd : isSpellingChar d = false) : c ≠ d := by
  rintro rfl
  rw [hc] at hd
  cases hd

theorem mem_spelling {t : ValueType} {c : Char} (hc : c ∈ t.spelling.toList) :
    isSpellingChar c = true :=
  List.all_eq_true.mp (spelling_chars t) c hc

theorem spelling_ne_nil (t : ValueType) : t.spelling.toList ≠ [] := by
  cases t <;> simp [ValueType.spelling]

/-- A spelling starts with a letter. -/
theorem spelling_head (t : ValueType) : t.spelling.toList.head?.map Char.isAlpha = some true := by
  cases t <;> rfl

/-- A spelling opens with a letter. -/
theorem spelling_opens (t : ValueType) : ∃ c r, t.spelling.toList = c :: r ∧ c.isAlpha = true := by
  have hhead := spelling_head t
  cases hs : t.spelling.toList with
  | nil => exact absurd hs (spelling_ne_nil t)
  | cons c r =>
    rw [hs] at hhead
    simp only [List.head?_cons, Option.map_some, Option.some.injEq] at hhead
    exact ⟨c, r, rfl, hhead⟩

theorem IsIdentChar.of_isAlpha {c : Char} (h : c.isAlpha = true) : IsIdentChar c :=
  .inl (by simp [Char.isAlphanum, h])

end Breadboard.Header
