import Mathlib
import Breadboard.Header.Parse
import Breadboard.Proofs.Header.Braces
import Breadboard.Proofs.Text.Scan
/-!
# Cuts at byte offsets

The reader of `Header.Parse` cuts its texts at byte offsets, and a cut faults when an offset
lies past the end of its text or inside a character (`slice_inside_char`). Every offset the
reader computes is the byte offset `String.utf8Len (cs.take i)` of some character position
`i`, and a cut between the byte offsets of two positions `i ≤ j` gives the characters between
them (`slice_take`). This module shows that each offset the reader computes is of that form:

* `nameStart_eq`: a prototype's name starts at the byte offset of its trailing run of name
  characters;
* `byteIndex_eq`: the byte offset of a `[` is that of the characters before it;
* `closingFrom_utf8Size`, `matchingBrace_eq`: the brace scanner counting bytes answers the byte
  offset of the `}` that the scanner counting characters finds;
* `occurrences_map`, `occurrences_sound`: the matches a scan lists, and what each match read;
* `Apart.end_le_next`, `accessLabels_apart`: each public section ends at or after its label;
* `blankFrom_byteSpans`: blanking byte ranges blanks the characters of the character ranges;
* `byteLength_sub_suffix`: a file extension found in lower case is cut off at a boundary.
-/

namespace Breadboard.Header

open Text

/-! ## Byte offsets of character positions -/

@[simp] theorem byteLength_eq (cs : List Char) : byteLength cs = String.utf8Len cs := by
  induction cs with
  | nil => rfl
  | cons c rest ih => rw [byteLength, ih, String.utf8Len_cons]

/-- The characters before character `n` are the characters before its byte offset. -/
theorem takeBytes_utf8Len : ∀ (cs : List Char) (n : Nat),
    takeBytes cs (String.utf8Len (cs.take n)) = some (cs.take n)
  | [], n => by simp [takeBytes]
  | c :: rest, 0 => by simp [takeBytes]
  | c :: rest, n + 1 => by
    have hpos := Char.utf8Size_pos c
    obtain ⟨m, hm⟩ : ∃ m, String.utf8Len (rest.take n) + c.utf8Size = m + 1 :=
      ⟨String.utf8Len (rest.take n) + c.utf8Size - 1, by omega⟩
    rw [List.take_succ_cons, String.utf8Len_cons, hm, takeBytes, if_pos (by omega),
      show m + 1 - c.utf8Size = String.utf8Len (rest.take n) by omega, takeBytes_utf8Len rest n,
      Option.map_some]

theorem utf8Len_take_le (cs : List Char) (i : Nat) :
    String.utf8Len (cs.take i) ≤ String.utf8Len cs :=
  String.utf8Len_le_of_prefix (List.take_prefix i cs)

theorem utf8Len_take_mono (cs : List Char) {i j : Nat} (h : i ≤ j) :
    String.utf8Len (cs.take i) ≤ String.utf8Len (cs.take j) := by
  obtain ⟨k, rfl⟩ := Nat.exists_eq_add_of_le h
  rw [utf8Len_take_add]
  exact Nat.le_add_right _ _

theorem utf8Len_take_succ {cs : List Char} {p : Nat} {c : Char} (h : cs[p]? = some c) :
    String.utf8Len (cs.take (p + 1)) = String.utf8Len (cs.take p) + c.utf8Size := by
  simp [List.take_add_one, h]

/-- Byte offsets grow strictly with the positions of characters that exist. -/
theorem utf8Len_take_lt (cs : List Char) {p j : Nat} (hp : p < cs.length) (hj : p < j) :
    String.utf8Len (cs.take p) < String.utf8Len (cs.take j) :=
  calc String.utf8Len (cs.take p)
      < String.utf8Len (cs.take p) + cs[p].utf8Size := Nat.lt_add_of_pos_right (Char.utf8Size_pos _)
    _ = String.utf8Len (cs.take (p + 1)) := (utf8Len_take_succ (List.getElem?_eq_getElem hp)).symm
    _ ≤ String.utf8Len (cs.take j) := utf8Len_take_mono cs hj

/-- A text has at least as many bytes as characters. -/
theorem length_le_utf8Len (cs : List Char) : cs.length ≤ String.utf8Len cs := by
  induction cs with
  | nil => exact Nat.le_refl 0
  | cons c rest ih =>
    rw [List.length_cons, String.utf8Len_cons]
    have := Char.utf8Size_pos c
    omega

/-! ## Slices -/

/-- **A cut between character boundaries.** Cutting `cs` between the byte offsets of
characters `i ≤ j` gives the characters from `i` up to `j`. -/
theorem slice_take (cs : List Char) {i j : Nat} (h : i ≤ j) :
    slice cs (String.utf8Len (cs.take i)) (String.utf8Len (cs.take j)) =
      .ok ((cs.drop i).take (j - i)) := by
  have hi := utf8Len_take_le cs i
  have hj := utf8Len_take_le cs j
  have hij := utf8Len_take_mono cs h
  obtain ⟨k, rfl⟩ := Nat.exists_eq_add_of_le h
  have hk : String.utf8Len (cs.take (i + k)) - String.utf8Len (cs.take i) =
      String.utf8Len ((cs.drop i).take k) := by
    rw [utf8Len_take_add, sum_map_utf8Size]
    omega
  simp only [slice, byteLength_eq, if_neg (Nat.not_lt.mpr hi), if_neg (Nat.not_lt.mpr hj),
    if_neg (Nat.not_lt.mpr hij), dropBytes_utf8Len, hk, takeBytes_utf8Len, Nat.add_sub_cancel_left]

theorem slice_zero_take (cs : List Char) (j : Nat) :
    slice cs 0 (String.utf8Len (cs.take j)) = .ok (cs.take j) := by
  simpa using slice_take cs (Nat.zero_le j)

theorem slice_drop {cs : List Char} {i : Nat} (h : i ≤ cs.length) :
    slice cs (String.utf8Len (cs.take i)) (byteLength cs) = .ok (cs.drop i) := by
  have hs := slice_take cs h
  rw [byteLength_eq]
  rwa [List.take_length, List.take_of_length_le (List.length_drop ..).le] at hs

/-- A cut is no longer than the text it was cut from. -/
theorem length_take_drop_le (cs : List Char) (i k : Nat) :
    ((cs.drop i).take k).length ≤ cs.length :=
  (List.length_take_le' _ _).trans (by rw [List.length_drop]; exact Nat.sub_le _ _)

/-- A cut that ends inside a character faults: the first byte of a wider character is no
boundary. -/
theorem slice_inside_char {c : Char} (rest : List Char) (hc : 1 < c.utf8Size) :
    slice (c :: rest) 0 1 = .error (.insideChar 1 (c :: rest)) := by
  have hsize : 1 ≤ byteLength (c :: rest) := by
    rw [byteLength_eq, String.utf8Len_cons]
    omega
  have htake : takeBytes (c :: rest) 1 = none := by
    rw [takeBytes, if_neg (Nat.not_le.mpr hc)]
  simp only [slice, Nat.not_lt_zero, if_false, if_neg (Nat.not_lt.mpr hsize), dropBytes,
    Nat.sub_zero, htake]

/-! ## Names, brackets and braces -/

theorem reverse_takeWhile_reverse (p : Char → Bool) (l : List Char) :
    (l.reverse.takeWhile p).reverse = l.drop (l.length - (l.reverse.takeWhile p).length) := by
  conv_lhs => rw [List.prefix_iff_eq_take.mp (List.takeWhile_prefix p)]
  rw [List.take_reverse, List.reverse_reverse]

theorem charIndices_append (l₁ l₂ : List Char) (i : Nat) :
    charIndices (l₁ ++ l₂) i = charIndices l₁ i ++ charIndices l₂ (i + String.utf8Len l₁) := by
  induction l₁ generalizing i with
  | nil => simp [charIndices]
  | cons c rest ih =>
    rw [List.cons_append, charIndices, charIndices, ih, String.utf8Len_cons, List.cons_append,
      Nat.add_assoc, Nat.add_comm c.utf8Size]

/-- The name of a head starts at the byte offset of its trailing run of name characters. -/
theorem nameStart_eq (head : List Char) :
    nameStart head =
      String.utf8Len (head.take (head.length - (head.reverse.takeWhile isNameChar).length)) := by
  induction head using List.reverseRecOn with
  | nil => simp [nameStart, charIndices]
  | append_singleton h c ih =>
    have hidx : (charIndices (h ++ [c]) 0).reverse =
        (String.utf8Len h, c) :: (charIndices h 0).reverse := by
      simp [charIndices_append, charIndices]
    unfold nameStart at ih ⊢
    rw [hidx, List.find?_cons, List.reverse_append, List.reverse_singleton, List.singleton_append]
    by_cases hc : isNameChar c
    · -- the last character belongs to the name, so the name starts where it starts in `h`
      rw [List.takeWhile_cons_of_pos hc, List.length_cons, List.length_append,
        List.length_singleton, Nat.add_sub_add_right,
        List.take_append_of_le_length (Nat.sub_le _ _)]
      simpa [hc] using ih
    · rw [List.takeWhile_cons_of_neg hc, List.length_nil, Nat.sub_zero,
        List.take_of_length_le (Nat.le_refl _)]
      simp [hc]

/-- The byte offset of the first `x` is the byte length of the characters before it. -/
theorem byteIndex_eq (x : Char) (cs : List Char) :
    byteIndex x cs = if x ∈ cs then some (String.utf8Len (cs.takeWhile (· ≠ x))) else none := by
  induction cs with
  | nil => simp [byteIndex]
  | cons c rest ih =>
    by_cases hc : c = x
    · subst hc
      simp [byteIndex]
    · rw [byteIndex, if_neg hc, ih, List.takeWhile_cons_of_pos (by simpa using hc)]
      by_cases hx : x ∈ rest
      · simp [hx, String.utf8Len_cons, Nat.add_comm]
      · simp [hx, Ne.symm hc]

/-- From a `{`, the brace scanner counting bytes answers the byte offset of the `}` that the
scanner counting characters answers: both stop at the first `}` that balances the `{`. -/
theorem closingFrom_utf8Size (rest : List Char) :
    closingFrom Char.utf8Size none 0 0 ('{' :: rest) =
      (closingIndex ('{' :: rest)).map fun k => String.utf8Len (('{' :: rest).take k) := by
  cases h : closingIndex ('{' :: rest) with
  | none =>
    exact (closingFrom_open_eq_none_iff _ rest).mpr ((closingFrom_open_eq_none_iff _ rest).mp h)
  | some k =>
    obtain ⟨j, hj, hfirst, hk⟩ := (closingFrom_open_eq_some_iff (fun _ => 1) rest k).mp h
    -- counting one per character, the answer is the position of the `}` itself
    have hlt : j < ('{' :: rest).length := (List.getElem?_eq_some_iff.mp hj.1).1
    have hjk : k = j := by
      rw [hk, List.map_const', List.sum_replicate, smul_eq_mul, Nat.mul_one, List.length_take,
        Nat.min_eq_left hlt.le]
    subst hjk
    exact (closingFrom_open_eq_some_iff _ rest _).mpr ⟨k, hj, hfirst, (sum_map_utf8Size _).symm⟩

/-- The brace scanner, counting one per character, answers the offset of a `}` of the text it
scans. -/
theorem closingFrom_closes : ∀ (cs : List Char) (lit : Option Literal) (depth offset k : Nat),
    closingFrom (fun _ => 1) lit depth offset cs = some k → offset ≤ k ∧ cs[k - offset]? = some '}'
  | [], _, _, _, _, h => by simp [closingFrom] at h
  | c :: rest, lit, depth, offset, k, h => by
    -- every branch but the closing one goes on one character further
    have step : ∀ lit' depth', closingFrom (fun _ => 1) lit' depth' (offset + 1) rest = some k →
        offset ≤ k ∧ (c :: rest)[k - offset]? = some '}' := by
      intro lit' depth' h'
      obtain ⟨hle, hget⟩ := closingFrom_closes rest lit' depth' (offset + 1) k h'
      refine ⟨by omega, ?_⟩
      rw [show k - offset = k - (offset + 1) + 1 by omega, List.getElem?_cons_succ]
      exact hget
    cases lit with
    | some lit => exact step _ _ h
    | none =>
      simp only [closingFrom] at h
      split_ifs at h with hq hopen hclose hzero
      · exact step _ _ h
      · exact step _ _ h
      · cases h
        simp [hclose]
      · exact step _ _ h
      · exact step _ _ h

/-- From the `{` that opens a block, the closing `}` lies at least one character further. -/
theorem closingIndex_after_open {block : List Char} {k : Nat} (hopen : block.head? = some '{')
    (h : closingIndex block = some k) : 0 < k ∧ block[k]? = some '}' := by
  obtain ⟨-, hk⟩ := closingFrom_closes block none 0 0 k h
  rw [Nat.sub_zero] at hk
  refine ⟨Nat.pos_of_ne_zero fun hz => ?_, hk⟩
  rw [hz, ← List.head?_eq_getElem?, hopen] at hk
  cases hk

/-- For the `{` at character `q`, the closing brace is looked for from the byte offset of `q`,
and found at the byte offset of the character that closes the block. -/
theorem matchingBrace_eq {T : List Char} {q : Nat} (hq : T[q]? = some '{') :
    matchingBrace T (String.utf8Len (T.take q)) =
      .ok ((closingIndex (T.drop q)).map fun k => String.utf8Len (T.take (q + k))) := by
  have hlt : q < T.length := (List.getElem?_eq_some_iff.mp hq).1
  have hblock : T.drop q = '{' :: T.drop (q + 1) := by
    rw [List.drop_eq_getElem_cons hlt, (List.getElem?_eq_some_iff.mp hq).2]
  simp only [matchingBrace, slice_drop hlt.le, bind, Except.bind, pure, Except.pure]
  rw [hblock, closingFrom_utf8Size, Option.map_map, ← hblock]
  congr 2
  funext k
  rw [Function.comp_apply, utf8Len_take_add, sum_map_utf8Size]

/-! ## Class heads -/

theorem spanClass_append {p : Char → Bool} {l a b : List Char} (h : spanClass p l = (a, b)) :
    l = a ++ b := by
  simp only [spanClass, Prod.mk.injEq] at h
  rw [← h.1, ← h.2, List.takeWhile_append_dropWhile]

theorem spanClass_length {p : Char → Bool} {l a b : List Char} (h : spanClass p l = (a, b)) :
    a.length + b.length = l.length := by
  rw [spanClass_append h, List.length_append]

theorem guard_some {c : Prop} [Decidable c] {u : Unit} (h : (guard c : Option Unit) = some u) :
    c := by
  by_contra hc
  simp [guard, hc] at h

/-- A class head taking `n` characters ends with the `{` of its body; its closing brace and
its body are those the brace scanner finds from that `{`. -/
theorem classHeadAt_block {prev : Option Char} {cs : List Char} {head : ClassHead} {n : Nat}
    (h : classHeadAt prev cs = some (head, n)) :
    0 < n ∧ (cs.drop (n - 1)).head? = some '{' ∧
      head.close = (closingIndex (cs.drop (n - 1))).map (n - 1 + ·) ∧
      ∀ k, closingIndex (cs.drop (n - 1)) = some k →
        head.body = ((cs.drop (n - 1)).drop 1).take (k - 1) := by
  unfold classHeadAt at h
  obtain ⟨gap1, r1, hs1⟩ : ∃ gap1 r1, spanClass isBlank (cs.drop 5) = (gap1, r1) := ⟨_, _, rfl⟩
  obtain ⟨name, r2, hs2⟩ : ∃ name r2, spanClass isWordChar r1 = (name, r2) := ⟨_, _, rfl⟩
  obtain ⟨gap2, r3, hs3⟩ : ∃ gap2 r3, spanClass isBlank r2 = (gap2, r3) := ⟨_, _, rfl⟩
  simp only [hs1, hs2, hs3, bind, Option.bind_eq_some_iff] at h
  obtain ⟨_, -, _, -, _, h3, h⟩ := h
  simp only [pure, Option.some.injEq, Prod.mk.injEq] at h
  obtain ⟨hhead, hn⟩ := h
  refine ⟨by omega, ?_, ?_⟩
  · -- the head's spans, the base list included, take the text up to the `{`
    have hopen := guard_some h3
    rw [← hn, Nat.add_sub_cancel, ← List.drop_drop, ← List.drop_drop, ← List.drop_drop,
      ← List.drop_drop, spanClass_append hs1, List.drop_left, spanClass_append hs2, List.drop_left,
      spanClass_append hs3, List.drop_left]
    revert hopen
    split
    · rename_i r'
      intro hopen
      obtain ⟨b, r'', hb⟩ : ∃ b r'', spanClass (fun c => !(c == '{' || c == ';')) r' = (b, r'') :=
        ⟨_, _, rfl⟩
      rw [hb] at hopen ⊢
      dsimp only at hopen ⊢
      rw [spanClass_append hb, ← List.drop_drop, List.drop_one, List.tail_cons, List.drop_left]
      exact hopen
    · intro hopen
      exact hopen
  · subst hhead
    rw [hn]
    split
    · rename_i k hk
      exact ⟨by rw [hk]; rfl, fun k' hk' => by rw [hk] at hk'; cases hk'; rfl⟩
    · rename_i hk
      exact ⟨by rw [hk]; rfl, fun k' hk' => by rw [hk] at hk'; cases hk'⟩

/-! ## Scans -/

/-! A scan of `T` that stands at position `p` reads `T.drop p`; these step it on. -/

theorem drop_add_of_drop_eq {T cs : List Char} {p : Nat} (h : T.drop p = cs) (n : Nat) :
    T.drop (p + n) = cs.drop n := by
  rw [← List.drop_drop, h]

theorem drop_succ_of_drop_eq {T rest : List Char} {p : Nat} {c : Char}
    (h : T.drop p = c :: rest) : T.drop (p + 1) = rest :=
  drop_add_of_drop_eq h 1

theorem getElem?_of_drop_eq {T rest : List Char} {p : Nat} {c : Char}
    (h : T.drop p = c :: rest) : T[p]? = some c := by
  rw [← List.head?_drop, h]
  rfl

section Scans

variable {α : Type} {find : Option Char → List Char → Option (α × Nat)}

theorem occurrences_cons_of_found {prev : Option Char} {pos : Nat} {c : Char} {rest : List Char}
    {a : α} {n : Nat} (h : find prev (c :: rest) = some (a, n)) (hn : 0 < n) :
    occurrences find prev pos (c :: rest) =
      (a, pos, n) :: occurrences find ((c :: rest)[n - 1]?) (pos + n) ((c :: rest).drop n) := by
  rw [occurrences, h]
  exact dif_pos hn

theorem occurrences_cons_of_empty {prev : Option Char} {pos : Nat} {c : Char} {rest : List Char}
    {a : α} (h : find prev (c :: rest) = some (a, 0)) :
    occurrences find prev pos (c :: rest) = occurrences find (some c) (pos + 1) rest := by
  rw [occurrences, h]
  exact dif_neg (Nat.lt_irrefl 0)

/-- A finder that reports what `find` reports, read together with the text it matched, lists
the matches of `find`, each with the text of `T` it spans. The scan of `T` stands at `pos`. -/
theorem occurrences_map {β : Type} (g : α → List Char → β) (T : List Char) (prev : Option Char)
    (pos : Nat) (cs : List Char) : T.drop pos = cs →
      occurrences (fun prev cs => (find prev cs).map fun m => (g m.1 (cs.take m.2), m.2)) prev pos
          cs =
        (occurrences find prev pos cs).map fun o => (g o.1 ((T.drop o.2.1).take o.2.2), o.2) := by
  fun_induction occurrences find prev pos cs with
  | case1 prev pos => intro; simp [occurrences]
  | case2 prev pos c rest a n hf hn ih =>
    intro hcs
    rw [occurrences_cons_of_found (by rw [hf]; rfl) hn, List.map_cons,
      ih (drop_add_of_drop_eq hcs n)]
    dsimp only
    rw [hcs]
  | case3 prev pos c rest a n hf hn ih =>
    intro hcs
    have hn0 : n = 0 := by omega
    subst hn0
    rw [occurrences_cons_of_empty (by rw [hf]; rfl), ih (drop_succ_of_drop_eq hcs)]
  | case4 prev pos c rest hf ih =>
    intro hcs
    rw [occurrences_cons_of_none (by rw [hf]; rfl), ih (drop_succ_of_drop_eq hcs)]

/-- Every match a scan of `T` lists was found by `find` at its position of `T`. -/
theorem occurrences_sound (T : List Char) (prev : Option Char) (pos : Nat) (cs : List Char) :
    T.drop pos = cs → ∀ a p n, (a, p, n) ∈ occurrences find prev pos cs →
      ∃ prev', find prev' (T.drop p) = some (a, n) := by
  fun_induction occurrences find prev pos cs with
  | case1 prev pos => intro _ a p n hm; simp at hm
  | case2 prev pos c rest a n hf hn ih =>
    intro hcs a' p n' hm
    rcases List.mem_cons.mp hm with heq | hm
    · obtain ⟨rfl, rfl, rfl⟩ : a' = a ∧ p = pos ∧ n' = n := by simpa using heq
      exact ⟨prev, by rw [hcs]; exact hf⟩
    · exact ih (drop_add_of_drop_eq hcs n) a' p n' hm
  | case3 prev pos c rest a n hf hn ih => exact fun hcs => ih (drop_succ_of_drop_eq hcs)
  | case4 prev pos c rest hf ih => exact fun hcs => ih (drop_succ_of_drop_eq hcs)

/-- Matches `(a, p, n)` listed in order from `lo`: each starts at or after the end of the one
before it, and the last ends by `hi`. -/
def Apart : Nat → Nat → List (α × Nat × Nat) → Prop
  | lo, hi, [] => lo ≤ hi
  | lo, hi, (_, p, n) :: ms => lo ≤ p ∧ Apart (p + n) hi ms

theorem Apart.of_le {lo lo' hi : Nat} {ms : List (α × Nat × Nat)} (hle : lo' ≤ lo)
    (h : Apart lo hi ms) : Apart lo' hi ms := by
  cases ms with
  | nil => exact Nat.le_trans hle h
  | cons m ms =>
    obtain ⟨a, p, n⟩ := m
    exact ⟨Nat.le_trans hle h.1, h.2⟩

/-- A scan whose finder never takes more than the text it is shown lists its matches in order,
apart, and inside the text: a scan resumes behind each match. -/
theorem occurrences_apart (hfind : ∀ prev cs a n, find prev cs = some (a, n) → n ≤ cs.length)
    (prev : Option Char) (pos : Nat) (cs : List Char) :
    Apart pos (pos + cs.length) (occurrences find prev pos cs) := by
  fun_induction occurrences find prev pos cs with
  | case1 prev pos => exact Nat.le_refl _
  | case2 prev pos c rest a n hf hn ih =>
    have hle := hfind _ _ _ _ hf
    rw [List.length_drop] at ih
    refine ⟨Nat.le_refl _, ?_⟩
    rwa [show pos + n + ((c :: rest).length - n) = pos + (c :: rest).length by omega] at ih
  | case3 prev pos c rest a n hf hn ih =>
    rw [List.length_cons, ← Nat.add_assoc, Nat.add_right_comm]
    exact ih.of_le (Nat.le_succ pos)
  | case4 prev pos c rest hf ih =>
    rw [List.length_cons, ← Nat.add_assoc, Nat.add_right_comm]
    exact ih.of_le (Nat.le_succ pos)

/-- Of matches apart, each ends by the start of the next one, and the last by `hi`. -/
theorem Apart.end_le_next : ∀ {lo hi : Nat} {ms : List (α × Nat × Nat)}, Apart lo hi ms →
    ∀ m ∈ ms.zip ((ms.drop 1).map (·.2.1) ++ [hi]), m.1.2.1 + m.1.2.2 ≤ m.2
  | _, _, [], _ => by simp
  | _, _, [(a, p, n)], h => by
    intro m hm
    rw [List.drop_one, List.tail_cons, List.map_nil, List.nil_append, List.zip_cons_cons,
      List.zip_nil_left, List.mem_singleton] at hm
    subst hm
    exact h.2
  | _, hi, (a, p, n) :: (a', p', n') :: ms, h => by
    intro m hm
    rw [List.drop_one, List.tail_cons, List.map_cons, List.cons_append, List.zip_cons_cons,
      List.mem_cons] at hm
    rcases hm with rfl | hm
    · exact h.2.1
    · exact Apart.end_le_next h.2 m hm

end Scans

/-- An access label takes no more than the text: its word, the blanks after it, and the
`:`. -/
theorem accessLabelAt_le {prev : Option Char} {cs : List Char} {a : String} {n : Nat}
    (h : accessLabelAt prev cs = some (a, n)) : n ≤ cs.length := by
  unfold accessLabelAt at h
  simp only [bind, Option.bind_eq_some_iff] at h
  obtain ⟨_, -, word, -, h⟩ := h
  obtain ⟨gap, r, hs⟩ : ∃ gap r, spanClass isBlank (cs.drop word.length) = (gap, r) := ⟨_, _, rfl⟩
  simp only [hs] at h
  obtain ⟨_, hcolon, h⟩ := h
  simp only [pure, Option.some.injEq, Prod.mk.injEq] at h
  have hr : r ≠ [] := by
    intro hr
    simp [hr] at hcolon
  have hlen := spanClass_length hs
  rw [List.length_drop] at hlen
  have := List.length_pos_iff.mpr hr
  omega

/-- The access labels of a class body stand in order, apart, inside the body, so each public
section runs from the end of its label to the start of the next label, or to the end. -/
theorem accessLabels_apart (body : List Char) :
    Apart 0 body.length (occurrences accessLabelAt none 0 body) := by
  have h := occurrences_apart (fun (p : Option Char) (cs : List Char) (a : String) (n : Nat)
    (h : accessLabelAt p cs = some (a, n)) => accessLabelAt_le h) none 0 body
  rwa [Nat.zero_add] at h

/-! ## Ranges blanked at byte offsets -/

/-- The byte range of a range of character positions of `T`. -/
def byteSpan (T : List Char) (r : Nat × Nat) : Nat × Nat :=
  (String.utf8Len (T.take r.1), String.utf8Len (T.take r.2))

/-- Blanking the byte ranges of character ranges of `T` blanks the characters in those
ranges: a character lies in a range exactly when its byte offset lies in the byte range. -/
theorem blankFrom_byteSpans (T : List Char) (spans : List (Nat × Nat)) :
    ∀ (cs : List Char) (p : Nat), T.drop p = cs →
      blankFrom Char.utf8Size (spans.map (byteSpan T)) (String.utf8Len (T.take p)) cs =
        blankFrom (fun _ => 1) spans p cs
  | [], _, _ => rfl
  | c :: rest, p, hcs => by
    have hc := getElem?_of_drop_eq hcs
    have hp : p < T.length := (List.getElem?_eq_some_iff.mp hc).1
    have hin : ∀ r : Nat × Nat, (String.utf8Len (T.take r.1) ≤ String.utf8Len (T.take p) ∧
        String.utf8Len (T.take p) < String.utf8Len (T.take r.2)) ↔ (r.1 ≤ p ∧ p < r.2) := by
      intro r
      constructor
      · rintro ⟨h1, h2⟩
        refine ⟨Nat.le_of_not_lt fun hlt => ?_, Nat.lt_of_not_le fun hle => ?_⟩
        · exact absurd h1 (Nat.not_le.mpr (utf8Len_take_lt T hp hlt))
        · exact absurd h2 (Nat.not_lt.mpr (utf8Len_take_mono T hle))
      · rintro ⟨h1, h2⟩
        exact ⟨utf8Len_take_mono T h1, utf8Len_take_lt T hp h2⟩
    have hany : ((spans.map (byteSpan T)).any fun r =>
        decide (r.1 ≤ String.utf8Len (T.take p) ∧ String.utf8Len (T.take p) < r.2)) =
        spans.any fun r => decide (r.1 ≤ p ∧ p < r.2) := by
      rw [List.any_map]
      congr 1
      funext r
      exact decide_eq_decide.mpr (hin r)
    simp only [blankFrom, hany, ← utf8Len_take_succ hc,
      blankFrom_byteSpans T spans rest (p + 1) (drop_succ_of_drop_eq hcs)]

theorem blankFrom_length (w : Char → Nat) (ranges : List (Nat × Nat)) :
    ∀ (pos : Nat) (cs : List Char), (blankFrom w ranges pos cs).length = cs.length
  | _, [] => rfl
  | pos, c :: rest => by
    rw [blankFrom, List.length_cons, List.length_cons, blankFrom_length w ranges _ rest]

/-! ## File extensions -/

/-- Lower-casing keeps the width of every character: only ASCII letters change. -/
theorem utf8Size_toLower (c : Char) : c.toLower.utf8Size = c.utf8Size := by
  unfold Char.toLower
  split
  · rename_i h
    have hZ : c.val.toNat ≤ 90 := UInt32.le_iff_toNat_le.mp h.2
    have hlow : c.val + ('a'.val - 'A'.val) ≤ 127 := by
      rw [show 'a'.val - 'A'.val = 32 by decide, UInt32.le_iff_toNat_le, UInt32.toNat_add]
      simp only [UInt32.reduceToNat]
      omega
    rw [Char.utf8Size_eq_one_iff.mpr hlow, Char.utf8Size_eq_one_iff.mpr
      (UInt32.le_iff_toNat_le.mpr (by simp only [UInt32.reduceToNat]; omega))]
  · rfl

theorem utf8Len_map_toLower (cs : List Char) :
    String.utf8Len (cs.map Char.toLower) = String.utf8Len cs := by
  induction cs with
  | nil => rfl
  | cons c rest ih =>
    rw [List.map_cons, String.utf8Len_cons, String.utf8Len_cons, ih, utf8Size_toLower]

theorem endsWith_suffix {l : List Char} {ext : String}
    (h : (String.ofList l).endsWith ext = true) : ext.toList <:+ l := by
  have h' : (String.ofList l).toSlice.endsWith ext = true := h
  rw [String.Slice.endsWith_string_iff] at h'
  simpa using h'

/-- Cutting a suffix whose lower-case form is `ext` off a text `cs` leaves its first
`cs.length - ext.length` characters. -/
theorem cut_of_endsWith {cs : List Char} {ext : String}
    (h : (String.ofList (cs.map Char.toLower)).endsWith ext = true) :
    cs = cs.take (cs.length - ext.length) ++ cs.drop (cs.length - ext.length) ∧
      (cs.drop (cs.length - ext.length)).map Char.toLower = ext.toList := by
  obtain ⟨t, ht⟩ := endsWith_suffix h
  have hlen := congrArg List.length ht
  rw [List.length_append, List.length_map] at hlen
  refine ⟨(List.take_append_drop _ cs).symm, ?_⟩
  rw [List.map_drop, ← ht, show cs.length - ext.length = t.length by
    rw [← String.length_toList]; omega, List.drop_left]

/-- A text that ends in `ext` in lower case loses the bytes of `ext` exactly where its last
`ext.length` characters start. -/
theorem byteLength_sub_suffix {cs : List Char} {ext : String}
    (h : (String.ofList (cs.map Char.toLower)).endsWith ext = true) :
    byteLength cs - ext.utf8ByteSize = String.utf8Len (cs.take (cs.length - ext.length)) := by
  obtain ⟨hcut, hext⟩ := cut_of_endsWith h
  have hsplit := congrArg String.utf8Len hcut
  have hsuffix : String.utf8Len (cs.drop (cs.length - ext.length)) = ext.utf8ByteSize := by
    rw [← utf8Len_map_toLower, hext, String.utf8Len_toList]
  rw [String.utf8Len_append, hsuffix] at hsplit
  rw [byteLength_eq]
  omega

end Breadboard.Header
