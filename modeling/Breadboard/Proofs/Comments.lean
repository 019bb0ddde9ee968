import Breadboard.Header.Comments
/-!
# Erasing comments from a header

Main statements:

* `eraseComments_keeps_lines`: erasing comments keeps every newline of a header, so each
  declaration stays on its line, and a header with no `//` and no `/*` comes out unchanged;
* `eraseComments_idempotent`: erasing twice erases nothing more.

The second is a simulation. A second pass over the text the first pass wrote stays in step
with the first pass over the original: in code and in literals both passes are in the same
state, and where the first pass was inside a comment the second reads the space and the
newlines the comment left behind as code (`CommentScan.rescan`). A comment's space cannot
join a neighbour into a new opener, and a kept `/` is never followed by `/` or `*`, since the
first pass would have opened a comment there.
-/

namespace Breadboard.Header

/-- Erasing comments keeps the number of newlines, and changes nothing in a text without
comment openers. -/
theorem eraseComments_keeps_lines (s : String) :
    (eraseComments s).toList.count '\n' = s.toList.count '\n' ∧
    (¬ ['/', '/'] <:+: s.toList → ¬ ['/', '*'] <:+: s.toList → eraseComments s = s) := by
  refine ⟨?_, fun h1 h2 => ?_⟩
  · rw [eraseComments, String.toList_ofList, count_eraseFrom]
  · rw [eraseComments, eraseFrom_eq_self .code s.toList (.inl rfl) h1 h2, String.ofList_toList]

/-- A line with a lone `/` and no comment opener is kept as it is. -/
theorem eraseComments_plain_sample :
    ¬ ['/', '/'] <:+: "a /b\n".toList ∧ ¬ ['/', '*'] <:+: "a /b\n".toList ∧
      eraseComments "a /b\n" = "a /b\n" :=
  have h1 : ¬ ['/', '/'] <:+: "a /b\n".toList := by decide
  have h2 : ¬ ['/', '*'] <:+: "a /b\n".toList := by decide
  ⟨h1, h2, (eraseComments_keeps_lines "a /b\n").2 h1 h2⟩

/-! ## A second pass -/

/-- The state in which a second pass reads what the first pass wrote from `st`: a comment
leaves only blanks behind, which the second pass reads as code. -/
def CommentScan.rescan : CommentScan → CommentScan
  | .lineComment | .blockComment => .code
  | st => st

@[simp] theorem CommentScan.rescan_code : CommentScan.code.rescan = .code := rfl

@[simp] theorem CommentScan.rescan_lineComment : CommentScan.lineComment.rescan = .code := rfl

@[simp] theorem CommentScan.rescan_blockComment : CommentScan.blockComment.rescan = .code := rfl

@[simp] theorem CommentScan.rescan_quoted (q : Char) :
    (CommentScan.quoted q).rescan = .quoted q := rfl

/-- In code, a character that opens no comment is kept, and a quote opens a literal. -/
theorem eraseFrom_code_plain {c : Char} {rest : List Char}
    (h : c = '/' → rest.head? ≠ some '/' ∧ rest.head? ≠ some '*') :
    eraseFrom .code (c :: rest) =
      c :: eraseFrom (if c = '"' ∨ c = '\'' then .quoted c else .code) rest := by
  match rest with
  | [] => by_cases hq : c = '"' ∨ c = '\'' <;> simp [eraseFrom, hq]
  | d :: rest =>
    by_cases hc : c = '/'
    · subst hc
      obtain ⟨h1, h2⟩ := h rfl
      simp only [List.head?_cons, ne_eq, Option.some.injEq] at h1 h2
      simp [eraseFrom, h1, h2]
    · by_cases hq : c = '"' ∨ c = '\'' <;> simp [eraseFrom, hq, hc]

/-- In code, a character that is neither a `/` nor a quote is kept, and the scan stays in
code. -/
theorem eraseFrom_code_other {c : Char} (rest : List Char) (hc : c ≠ '/')
    (hq : c ≠ '"' ∧ c ≠ '\'') : eraseFrom .code (c :: rest) = c :: eraseFrom .code rest := by
  rw [eraseFrom_code_plain (fun h => absurd h hc), if_neg (not_or.mpr hq)]

/-- In a literal, a character other than an escaping backslash is kept, and the closing quote
or a newline ends the literal. -/
theorem eraseFrom_quoted_plain {q c : Char} {rest : List Char} (h : c = '\\' → rest = []) :
    eraseFrom (.quoted q) (c :: rest) =
      c :: eraseFrom (if c = q ∨ c = '\n' then .code else .quoted q) rest := by
  match rest with
  | [] => simp [eraseFrom]
  | d :: rest =>
    have hc : c ≠ '\\' := fun hc => by simpa using h hc
    simp [eraseFrom, hc]

/-- Erasing in code keeps the first character when it is not a `/`. -/
theorem head?_eraseFrom_code {cs : List Char} (h : cs.head? ≠ some '/') :
    (eraseFrom .code cs).head? = cs.head? := by
  match cs with
  | [] => simp [eraseFrom]
  | c :: rest =>
    have hc : c ≠ '/' := by simpa using h
    rw [eraseFrom_code_plain (fun h' => absurd h' hc)]
    rfl

/-- The second pass, started in the state that reads the first pass's output, changes
nothing. -/
theorem eraseFrom_rescan (st : CommentScan) (cs : List Char) :
    eraseFrom st.rescan (eraseFrom st cs) = eraseFrom st cs := by
  fun_induction eraseFrom st cs with
  | case1 st => cases st <;> rfl
  | case2 rest ih | case3 rest ih | case6 rest ih | case9 rest _ ih =>
    -- what a comment leaves, a space or a newline, is plain code
    simp only [CommentScan.rescan_code, CommentScan.rescan_lineComment,
      CommentScan.rescan_blockComment] at ih ⊢
    rw [eraseFrom_code_other _ (by decide) (by decide), ih]
  | case4 c rest _ _ hq ih =>
    have hc : c ≠ '/' := by rintro rfl; simp at hq
    rw [CommentScan.rescan_code, eraseFrom_code_plain (fun h => absurd h hc), if_pos hq]
    simp only [CommentScan.rescan_quoted] at ih
    rw [ih]
  | case5 c rest h1 h2 hq ih =>
    -- a kept `/` was not followed by `/` or `*`, and the next kept character is the same
    have hrest : c = '/' → rest.head? ≠ some '/' ∧ rest.head? ≠ some '*' := by
      rintro rfl
      constructor
      · intro h
        obtain ⟨r, rfl⟩ := List.head?_eq_some_iff.mp h
        exact h1 r rfl rfl
      · intro h
        obtain ⟨r, rfl⟩ := List.head?_eq_some_iff.mp h
        exact h2 r rfl rfl
    have hout : c = '/' → (eraseFrom .code rest).head? ≠ some '/' ∧
        (eraseFrom .code rest).head? ≠ some '*' := by
      intro hc
      rw [head?_eraseFrom_code (hrest hc).1]
      exact hrest hc
    rw [CommentScan.rescan_code, eraseFrom_code_plain hout, if_neg hq]
    simp only [CommentScan.rescan_code] at ih
    rw [ih]
  | case7 _ _ _ ih | case8 _ ih | case10 _ _ _ _ ih => exact ih
  | case11 q e rest ih =>
    simp only [CommentScan.rescan_quoted] at ih ⊢
    simp [eraseFrom, ih]
  | case12 q c rest h ih =>
    -- a backslash reaches this case only as the last character
    have hplain : c = '\\' →
        eraseFrom (if c = q ∨ c = '\n' then .code else .quoted q) rest = [] := by
      intro hc
      cases rest with
      | nil => simp [eraseFrom]
      | cons e rest => exact absurd rfl (h e rest hc)
    have hsettled : (if c = q ∨ c = '\n' then CommentScan.code else .quoted q).rescan =
        if c = q ∨ c = '\n' then CommentScan.code else .quoted q := by
      split <;> rfl
    rw [hsettled] at ih
    rw [CommentScan.rescan_quoted, eraseFrom_quoted_plain hplain, ih]

/-- Erasing comments twice is erasing them once: no comment is left that a second pass would
erase, and what the first pass kept is read again in the same states. -/
theorem eraseComments_idempotent (s : String) :
    eraseComments (eraseComments s) = eraseComments s := by
  have h := eraseFrom_rescan .code s.toList
  rw [CommentScan.rescan_code] at h
  rw [eraseComments, eraseComments, String.toList_ofList, h]

end Breadboard.Header
