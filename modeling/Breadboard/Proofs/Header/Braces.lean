import Mathlib
import Breadboard.Header.Blocks
/-!
# The brace that closes a block

`closingBrace s o` looks for the `}` that closes the block opened by the `{` at byte offset
`o` of `s`, skipping braces inside string and character literals. Its scan keeps a depth
counter that saturates at zero and a literal state with an escape flag, and it answers at the
first `}` that brings the depth back to zero.

The specification says the same without the counter: literals are read from the `{` on (a
quote outside literals opens one, and the next unescaped like quote closes it;
`literalStep`), and the closing brace is the first `}` outside literals such that the text
from the `{` up to it holds as many `{` as `}` outside literals (`ClosesAt`). Up to that
`}` the depth never falls below one, so the counter never saturates and equals the number of
`{` less the number of `}` read so far.

* `closingFrom_cons`: what the scanner does with one character;
* `closingFrom_eq_some_iff`: what it answers, from any literal state and any positive depth;
* `closingBrace_first_balanced`: the answer for the `{` at character `n` of a text is the
  byte offset of the first balancing `}`, and there is none exactly when no `}` balances it.
-/

namespace Breadboard.Header

/-! ## Literals and braces outside them -/

/-- The literal state after one more character: outside literals a quote opens one; inside,
a backslash escapes the character after it and the unescaped quote closes the literal. -/
def literalStep : Option Literal → Char → Option Literal
  | none, c => if c = '"' ∨ c = '\'' then some ⟨c, false⟩ else none
  | some lit, c =>
    if lit.escaped then some { lit with escaped := false }
    else if c = '\\' then some { lit with escaped := true }
    else if c = lit.quote then none
    else some lit

/-- The literal state after reading `cs` from `lit`. -/
def literalAfter (lit : Option Literal) (cs : List Char) : Option Literal :=
  cs.foldl literalStep lit

/-- How often `b` stands outside literals in `cs`, read from literal state `lit`. -/
def countOutside (b : Char) : Option Literal → List Char → Nat
  | _, [] => 0
  | lit, c :: rest =>
    (if lit.isNone ∧ c = b then 1 else 0) + countOutside b (literalStep lit c) rest

/-- Character `k` of `cs`, read from literal state `lit` with `depth` blocks open, is a `}`
outside literals that closes the last open block: up to and including it, `cs` holds
`depth` more `}` than `{` outside literals. -/
def ClosesAt (lit : Option Literal) (depth : Nat) (cs : List Char) (k : Nat) : Prop :=
  cs[k]? = some '}' ∧ (literalAfter lit (cs.take k)).isNone ∧
    depth + countOutside '{' lit (cs.take (k + 1)) = countOutside '}' lit (cs.take (k + 1))

instance (lit : Option Literal) (depth : Nat) (cs : List Char) (k : Nat) :
    Decidable (ClosesAt lit depth cs k) :=
  inferInstanceAs (Decidable (_ ∧ _ ∧ _))

/-- The depth after one more character. -/
def depthStep (lit : Option Literal) (depth : Nat) (c : Char) : Nat :=
  if lit.isNone ∧ c = '{' then depth + 1 else if lit.isNone ∧ c = '}' then depth - 1 else depth

@[simp] theorem literalAfter_nil (lit : Option Literal) : literalAfter lit [] = lit := rfl

@[simp] theorem literalAfter_cons (lit : Option Literal) (c : Char) (cs : List Char) :
    literalAfter lit (c :: cs) = literalAfter (literalStep lit c) cs := rfl

@[simp] theorem countOutside_nil (b : Char) (lit : Option Literal) : countOutside b lit [] = 0 :=
  rfl

@[simp] theorem countOutside_cons (b : Char) (lit : Option Literal) (c : Char) (cs : List Char) :
    countOutside b lit (c :: cs) =
      (if lit.isNone ∧ c = b then 1 else 0) + countOutside b (literalStep lit c) cs := rfl

/-- A character closes the block right away only as a `}` outside literals with one block
open. -/
theorem closesAt_zero {lit : Option Literal} {depth : Nat} {c : Char} {rest : List Char} :
    ClosesAt lit depth (c :: rest) 0 ↔ lit.isNone ∧ c = '}' ∧ depth = 1 := by
  by_cases hc : c = '}'
  · subst hc
    cases lit <;> simp [ClosesAt]
  · simp [ClosesAt, hc]

/-- The depth a character leaves carries the balance of `{` and `}` over it. -/
theorem depthStep_balance {lit : Option Literal} {depth : Nat} {c : Char}
    (hdepth : lit.isNone ∧ c = '}' → 1 ≤ depth) (opens closes : Nat) :
    depth + ((if lit.isNone ∧ c = '{' then 1 else 0) + opens) =
        (if lit.isNone ∧ c = '}' then 1 else 0) + closes ↔
      depthStep lit depth c + opens = closes := by
  unfold depthStep
  by_cases ho : lit.isNone ∧ c = '{'
  · have hc : ¬ (lit.isNone ∧ c = '}') := by rintro ⟨-, rfl⟩; simp at ho
    simp only [if_pos ho, if_neg hc]
    omega
  · by_cases hc : lit.isNone ∧ c = '}'
    · have := hdepth hc
      simp only [if_pos hc, if_neg ho]
      omega
    · simp only [if_neg hc, if_neg ho]
      omega

/-- Past the first character, closing is closing the rest with the literal state and the
depth that character leaves. -/
theorem closesAt_succ {lit : Option Literal} {depth : Nat} {c : Char} {rest : List Char} {k : Nat}
    (hdepth : lit.isNone ∧ c = '}' → 1 ≤ depth) :
    ClosesAt lit depth (c :: rest) (k + 1) ↔
      ClosesAt (literalStep lit c) (depthStep lit depth c) rest k := by
  unfold ClosesAt
  simp only [List.getElem?_cons_succ, List.take_succ_cons, literalAfter_cons, countOutside_cons,
    depthStep_balance hdepth]

/-! ## One step of the brace scanner -/

/-- The brace scanner reads one character: it answers at a `}` outside literals that leaves
no block open, and otherwise goes on with the literal state and depth that character leaves. -/
theorem closingFrom_cons (w : Char → Nat) (lit : Option Literal) (depth off : Nat) (c : Char)
    (rest : List Char) :
    closingFrom w lit depth off (c :: rest) =
      if lit.isNone ∧ c = '}' ∧ depth ≤ 1 then some off
      else closingFrom w (literalStep lit c) (depthStep lit depth c) (off + w c) rest := by
  cases lit with
  | some lit =>
    simp only [Option.isNone_some, Bool.false_eq_true, false_and, if_false, depthStep]
    rfl
  | none =>
    simp only [Option.isNone_none, true_and, depthStep, literalStep, closingFrom]
    by_cases hq : c = '"' ∨ c = '\''
    · have hc : c ≠ '}' := by rcases hq with rfl | rfl <;> decide
      have ho : c ≠ '{' := by rcases hq with rfl | rfl <;> decide
      simp [hq, hc, ho]
    · by_cases ho : c = '{'
      · subst ho; simp
      · by_cases hc : c = '}'
        · subst hc
          by_cases hd : depth ≤ 1
          · simp [hd, show depth - 1 = 0 by omega]
          · simp [hd, show depth - 1 ≠ 0 by omega]
        · simp [hq, ho, hc]

/-- A closing brace at the first character is the least closing brace there is. -/
theorem exists_first_succ {P Q : Nat → Prop} (h0 : ¬ P 0) :
    (∃ k, P k ∧ (∀ j < k, ¬ P j) ∧ Q k) ↔
      ∃ k, P (k + 1) ∧ (∀ j < k, ¬ P (j + 1)) ∧ Q (k + 1) := by
  constructor
  · rintro ⟨k, hk, hfirst, hq⟩
    obtain ⟨k, rfl⟩ : ∃ k', k = k' + 1 :=
      Nat.exists_eq_succ_of_ne_zero (by rintro rfl; exact h0 hk)
    exact ⟨k, hk, fun j hj => hfirst (j + 1) (by omega), hq⟩
  · rintro ⟨k, hk, hfirst, hq⟩
    refine ⟨k + 1, hk, fun j hj => ?_, hq⟩
    cases j with
    | zero => exact h0
    | succ j => exact hfirst j (by omega)

/-- The brace scanner answers the offset of the first `}` that closes the last open block,
counting the widths of the characters before it, and it answers one exactly when such a `}`
exists. -/
theorem closingFrom_eq_some_iff (w : Char → Nat) :
    ∀ (cs : List Char) (lit : Option Literal) (depth off r : Nat), 1 ≤ depth →
      (closingFrom w lit depth off cs = some r ↔
        ∃ k, ClosesAt lit depth cs k ∧ (∀ j < k, ¬ ClosesAt lit depth cs j) ∧
          r = off + ((cs.take k).map w).sum)
  | [], lit, depth, off, r, _ => by simp [closingFrom, ClosesAt]
  | c :: rest, lit, depth, off, r, hdepth => by
    rw [closingFrom_cons]
    split_ifs with hret
    · -- the first character closes the block, so it is the least closing one
      obtain ⟨hlit, rfl, hle⟩ := hret
      have h0 : ClosesAt lit depth ('}' :: rest) 0 := closesAt_zero.mpr ⟨hlit, rfl, by omega⟩
      constructor
      · rintro ⟨⟩
        exact ⟨0, h0, fun j hj => absurd hj (Nat.not_lt_zero j), by simp⟩
      · rintro ⟨k, -, hfirst, rfl⟩
        have hk : k = 0 := Nat.eq_zero_of_not_pos fun hk => hfirst 0 hk h0
        simp [hk]
    · have h0 : ¬ ClosesAt lit depth (c :: rest) 0 := by
        rw [closesAt_zero]
        rintro ⟨hlit, hc, hd⟩
        exact hret ⟨hlit, hc, by omega⟩
      have hstep : 1 ≤ depthStep lit depth c := by
        unfold depthStep
        split_ifs with ho hc
        · omega
        · have : ¬ depth ≤ 1 := fun hle => hret ⟨hc.1, hc.2, hle⟩
          omega
        · exact hdepth
      rw [closingFrom_eq_some_iff w rest _ _ _ r hstep, exists_first_succ h0]
      simp only [closesAt_succ (fun hc => hdepth), List.take_succ_cons, List.map_cons,
        List.sum_cons, Nat.add_assoc]

/-- Some `}` closes the last open block exactly when a first one does. -/
theorem exists_first_of_exists {P : Nat → Prop} (h : ∃ k, P k) :
    ∃ k, P k ∧ ∀ j < k, ¬ P j := by
  classical
  exact ⟨Nat.find h, Nat.find_spec h, fun j hj => Nat.find_min h hj⟩

/-- A search that answers exactly at the first position where `P` holds answers nothing
exactly when `P` holds nowhere. -/
theorem eq_none_iff_of_first {o : Option Nat} {P : Nat → Prop} {g : Nat → Nat}
    (h : ∀ r, o = some r ↔ ∃ k, P k ∧ (∀ j < k, ¬ P j) ∧ r = g k) :
    o = none ↔ ∀ k, ¬ P k := by
  rw [Option.eq_none_iff_forall_ne_some]
  constructor
  · intro hnone k hk
    obtain ⟨j, hj, hfirst⟩ := exists_first_of_exists ⟨k, hk⟩
    exact hnone _ ((h _).mpr ⟨j, hj, hfirst, rfl⟩)
  · intro hno r hr
    obtain ⟨k, hk, -⟩ := (h r).mp hr
    exact hno k hk

/-- Scanning from a `{`: the scanner answers the offset of the first `}` that balances it. -/
theorem closingFrom_open_eq_some_iff (w : Char → Nat) (rest : List Char) (r : Nat) :
    closingFrom w none 0 0 ('{' :: rest) = some r ↔
      ∃ k, ClosesAt none 0 ('{' :: rest) k ∧ (∀ j < k, ¬ ClosesAt none 0 ('{' :: rest) j) ∧
        r = (((('{' :: rest).take k).map w).sum) := by
  have h0 : ¬ ClosesAt none 0 ('{' :: rest) 0 := by simp [closesAt_zero]
  have hsucc : ∀ k, ClosesAt none 0 ('{' :: rest) (k + 1) ↔ ClosesAt none 1 rest k := by
    intro k
    rw [closesAt_succ (by simp)]
    rfl
  have hlit : literalStep none '{' = none := by simp [literalStep]
  have hdepth : depthStep none 0 '{' = 1 := by simp [depthStep]
  rw [closingFrom_cons, if_neg (by simp), hlit, hdepth, Nat.zero_add, exists_first_succ h0]
  simp only [hsucc, List.take_succ_cons, List.map_cons, List.sum_cons]
  exact closingFrom_eq_some_iff w rest _ _ _ r le_rfl

/-- Scanning from a `{`: the scanner finds nothing exactly when no `}` balances it. -/
theorem closingFrom_open_eq_none_iff (w : Char → Nat) (rest : List Char) :
    closingFrom w none 0 0 ('{' :: rest) = none ↔ ∀ k, ¬ ClosesAt none 0 ('{' :: rest) k :=
  eq_none_iff_of_first (closingFrom_open_eq_some_iff w rest)

/-! ## Byte offsets -/

/-- The characters from character `n` on start at the byte offset of character `n`. -/
theorem dropBytes_utf8Len : ∀ (cs : List Char) (n : Nat),
    dropBytes cs (String.utf8Len (cs.take n)) = some (cs.drop n)
  | [], n => by simp [dropBytes]
  | c :: rest, 0 => by simp [dropBytes]
  | c :: rest, n + 1 => by
    have hpos := Char.utf8Size_pos c
    obtain ⟨m, hm⟩ : ∃ m, String.utf8Len (rest.take n) + c.utf8Size = m + 1 :=
      ⟨String.utf8Len (rest.take n) + c.utf8Size - 1, by omega⟩
    rw [List.take_succ_cons, String.utf8Len_cons, hm, dropBytes, if_pos (by omega),
      show m + 1 - c.utf8Size = String.utf8Len (rest.take n) by omega, dropBytes_utf8Len rest n,
      List.drop_succ_cons]

/-- Summing the widths of characters gives their UTF-8 length. -/
theorem sum_map_utf8Size (cs : List Char) : (cs.map Char.utf8Size).sum = String.utf8Len cs := by
  induction cs with
  | nil => rfl
  | cons c rest ih => rw [List.map_cons, List.sum_cons, ih, String.utf8Len_cons, Nat.add_comm]

/-- The byte offset of character `n + k` is that of character `n` and the widths of the `k`
characters after it. -/
theorem utf8Len_take_add (cs : List Char) (n k : Nat) :
    String.utf8Len (cs.take (n + k)) =
      String.utf8Len (cs.take n) + (((cs.drop n).take k).map Char.utf8Size).sum := by
  rw [List.take_add, String.utf8Len_append, sum_map_utf8Size]

/-- At the byte offset of a character, the brace scanner starts from that character. -/
theorem closingBrace_at_char (s : String) (n : Nat) :
    closingBrace s (String.utf8Len (s.toList.take n)) =
      (closingFrom Char.utf8Size none 0 0 (s.toList.drop n)).map
        (String.utf8Len (s.toList.take n) + ·) := by
  rw [closingBrace, dropBytes_utf8Len, Option.bind_some]

/-- Positions counted from character `n` on: the first position after the start where `P`
holds, as an offset `k` from `n`, is the first character `m = n + k` after `n`. -/
theorem exists_first_shift {P Q : Nat → Prop} (n : Nat) (h0 : ¬ P 0) :
    (∃ k, P k ∧ (∀ j < k, ¬ P j) ∧ Q (n + k)) ↔
      ∃ m, n < m ∧ P (m - n) ∧ (∀ m', n < m' → m' < m → ¬ P (m' - n)) ∧ Q m := by
  constructor
  · rintro ⟨k, hk, hfirst, hq⟩
    have hkpos : 0 < k := Nat.pos_of_ne_zero fun hz => h0 (hz ▸ hk)
    refine ⟨n + k, by omega, by rwa [Nat.add_sub_cancel_left], fun m' hm' hm'k => ?_, hq⟩
    exact hfirst (m' - n) (by omega)
  · rintro ⟨m, hnm, hm, hfirst, hq⟩
    refine ⟨m - n, hm, fun j hj => ?_, by rwa [Nat.add_sub_cancel' hnm.le]⟩
    by_cases hj0 : j = 0
    · exact hj0 ▸ h0
    · have := hfirst (n + j) (by omega) (by omega)
      rwa [Nat.add_sub_cancel_left] at this

/-- Positions counted from character `n` on: `P` holds nowhere after the start exactly when
it holds at no character after `n`. -/
theorem forall_not_shift {P : Nat → Prop} (n : Nat) (h0 : ¬ P 0) :
    (∀ k, ¬ P k) ↔ ∀ m, n < m → ¬ P (m - n) := by
  constructor
  · intro hno m _
    exact hno (m - n)
  · intro hno k hk
    have hkpos : 0 < k := Nat.pos_of_ne_zero fun hz => h0 (hz ▸ hk)
    have := hno (n + k) (by omega)
    rw [Nat.add_sub_cancel_left] at this
    exact this hk

/-! ## The brace that closes a block -/

/-- The closing brace of the block whose `{` is character `n` of `s`: its byte offset is
that of the first character `m` after `n` that is a `}` outside literals and leaves as many
`{` as `}` outside literals from `n` to `m`; there is none exactly when no character does.
The answer is always the byte offset of a character, so it falls on a character boundary. -/
theorem closingBrace_first_balanced (s : String) (n : Nat) (hn : s.toList[n]? = some '{') :
    (∀ c, closingBrace s (String.utf8Len (s.toList.take n)) = some c ↔
      ∃ m, n < m ∧ ClosesAt none 0 (s.toList.drop n) (m - n) ∧
        (∀ m', n < m' → m' < m → ¬ ClosesAt none 0 (s.toList.drop n) (m' - n)) ∧
        c = String.utf8Len (s.toList.take m)) ∧
    (closingBrace s (String.utf8Len (s.toList.take n)) = none ↔
      ∀ m, n < m → ¬ ClosesAt none 0 (s.toList.drop n) (m - n)) := by
  obtain ⟨hlt, hget⟩ := List.getElem?_eq_some_iff.mp hn
  have hdrop : s.toList.drop n = '{' :: s.toList.drop (n + 1) := by
    rw [List.drop_eq_getElem_cons hlt, hget]
  -- the `{` itself closes nothing
  have h0 : ¬ ClosesAt none 0 (s.toList.drop n) 0 := by simp [hdrop, closesAt_zero]
  have hsome : ∀ r, closingFrom Char.utf8Size none 0 0 (s.toList.drop n) = some r ↔
      ∃ k, ClosesAt none 0 (s.toList.drop n) k ∧
        (∀ j < k, ¬ ClosesAt none 0 (s.toList.drop n) j) ∧
        r = (((s.toList.drop n).take k).map Char.utf8Size).sum := by
    rw [hdrop]
    exact closingFrom_open_eq_some_iff _ _
  refine ⟨fun c => ?_, ?_⟩
  · rw [closingBrace_at_char, Option.map_eq_some_iff, ← exists_first_shift n h0]
    simp only [hsome, utf8Len_take_add]
    constructor
    · rintro ⟨r, ⟨k, hk, hfirst, rfl⟩, rfl⟩
      exact ⟨k, hk, hfirst, rfl⟩
    · rintro ⟨k, hk, hfirst, rfl⟩
      exact ⟨_, ⟨k, hk, hfirst, rfl⟩, rfl⟩
  · rw [closingBrace_at_char, Option.map_eq_none_iff, ← forall_not_shift n h0, hdrop]
    exact closingFrom_open_eq_none_iff _ _

/-- After a two-byte letter, the block opened at byte 2 closes at byte 6: the `}` quoted in
between is skipped. -/
theorem closingBrace_skips_quoted_brace :
    "é\x7b'\x7d'\x7d".toList[1]? = some '{' ∧ closingBrace "é\x7b'\x7d'\x7d" 2 = some 6 := by
  have hopen : "é\x7b'\x7d'\x7d".toList[1]? = some '{' := by decide
  have hoff : String.utf8Len ("é\x7b'\x7d'\x7d".toList.take 1) = 2 := by decide
  have hfirst : ∀ m', 1 < m' → m' < 5 →
      ¬ ClosesAt none 0 ("é\x7b'\x7d'\x7d".toList.drop 1) (m' - 1) := by
    intro m' h1 h2
    interval_cases m' <;> decide
  refine ⟨hopen, ?_⟩
  have h := ((closingBrace_first_balanced "é\x7b'\x7d'\x7d" 1 hopen).1 6).mpr
    ⟨5, by decide, by decide, hfirst, by decide⟩
  rwa [hoff] at h

end Breadboard.Header
