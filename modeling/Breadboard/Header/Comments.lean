/-!
# Erasing comments from header text

One left-to-right pass over the characters of a header. A `//` comment and a `/* … */`
comment each become a single space; the newline that ends a line comment is kept, and so
are the newlines inside a block comment, so every line of the header keeps its number.
Comment markers inside a string or character literal are text: a literal opens at an
unquoted `"` or `'` and closes at the same quote, at an unescaped newline, or at the end.
-/

namespace Breadboard.Header

/-- Where the comment scanner stands. -/
inductive CommentScan where
  /-- In code. -/
  | code
  /-- Inside a `//` comment. -/
  | lineComment
  /-- Inside a `/* … */` comment. -/
  | blockComment
  /-- Inside a literal opened by the given quote. -/
  | quoted (q : Char)
  deriving DecidableEq, Repr

/-- The characters kept from `cs` when scanning starts in state `st`. -/
def eraseFrom : CommentScan → List Char → List Char
  | _, [] => []
  | .code, '/' :: '/' :: rest => ' ' :: eraseFrom .lineComment rest
  | .code, '/' :: '*' :: rest => ' ' :: eraseFrom .blockComment rest
  | .code, c :: rest =>
    if c = '"' ∨ c = '\'' then c :: eraseFrom (.quoted c) rest else c :: eraseFrom .code rest
  | .lineComment, c :: rest =>
    if c = '\n' then '\n' :: eraseFrom .code rest else eraseFrom .lineComment rest
  | .blockComment, '*' :: '/' :: rest => eraseFrom .code rest
  | .blockComment, c :: rest =>
    if c = '\n' then '\n' :: eraseFrom .blockComment rest else eraseFrom .blockComment rest
  | .quoted q, '\\' :: e :: rest => '\\' :: e :: eraseFrom (.quoted q) rest
  | .quoted q, c :: rest =>
    c :: eraseFrom (if c = q ∨ c = '\n' then .code else .quoted q) rest

/-- The header text with its comments erased. -/
def eraseComments (s : String) : String :=
  String.ofList (eraseFrom .code s.toList)

/-- Erasing keeps every newline, from any state. -/
theorem count_eraseFrom (st : CommentScan) (cs : List Char) :
    (eraseFrom st cs).count '\n' = cs.count '\n' := by
  fun_induction eraseFrom st cs <;> simp_all [List.count_cons]

/-- A text that avoids a pattern also avoids it after its first character. -/
theorem not_infix_of_not_infix_cons {p rest : List Char} {c : Char} (h : ¬ p <:+: c :: rest) :
    ¬ p <:+: rest :=
  fun hr => h (List.infix_cons hr)

/-- In code or in a literal, a text with no `//` and no `/*` is kept as it is. -/
theorem eraseFrom_eq_self (st : CommentScan) (cs : List Char)
    (hst : st = .code ∨ ∃ q, st = .quoted q)
    (h1 : ¬ ['/', '/'] <:+: cs) (h2 : ¬ ['/', '*'] <:+: cs) : eraseFrom st cs = cs := by
  fun_induction eraseFrom st cs with
  | case1 => rfl
  | case2 rest => exact absurd ⟨[], rest, rfl⟩ h1
  | case3 rest => exact absurd ⟨[], rest, rfl⟩ h2
  | case4 c rest _ _ _ ih =>
    rw [ih (.inr ⟨c, rfl⟩) (not_infix_of_not_infix_cons h1) (not_infix_of_not_infix_cons h2)]
  | case5 c rest _ _ _ ih =>
    rw [ih (.inl rfl) (not_infix_of_not_infix_cons h1) (not_infix_of_not_infix_cons h2)]
  | case6 | case7 | case8 | case9 | case10 => simp at hst
  | case11 q e rest ih =>
    have h1' := not_infix_of_not_infix_cons (not_infix_of_not_infix_cons h1)
    have h2' := not_infix_of_not_infix_cons (not_infix_of_not_infix_cons h2)
    rw [ih (.inr ⟨q, rfl⟩) h1' h2']
  | case12 q c rest _ ih =>
    have h1' := not_infix_of_not_infix_cons h1
    have h2' := not_infix_of_not_infix_cons h2
    by_cases hc : c = q ∨ c = '\n'
    · rw [if_pos hc] at ih ⊢
      rw [ih (.inl rfl) h1' h2']
    · rw [if_neg hc] at ih ⊢
      rw [ih (.inr ⟨q, rfl⟩) h1' h2']

end Breadboard.Header
