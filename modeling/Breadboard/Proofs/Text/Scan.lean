import Breadboard.Text.Blank
import Breadboard.Text.Scan

/-!
# The text helpers on concatenated text

Lemmas that say what the character-list helpers do on a text built by concatenation, when
the pieces keep apart: trimming a text with blank margins, the words of a text split at a
blank, a search for a text whose first character a piece lacks, and a removal or a scan that
finds nothing at any position.
-/

namespace Breadboard.Text

/-! ## Trimming and words -/

/-- A non-empty piece with non-blank ends between blank margins trims to itself. -/
theorem trimChars_margins {pre xs post : List Char} (hpre : ∀ c ∈ pre, isBlank c = true)
    (hpost : ∀ c ∈ post, isBlank c = true) (hne : xs ≠ [])
    (hh : ∀ c, xs.head? = some c → isBlank c = false)
    (hl : ∀ c, xs.getLast? = some c → isBlank c = false) :
    trimChars (pre ++ xs ++ post) = xs := by
  have hfront : (pre ++ xs ++ post).dropWhile isBlank = xs ++ post := by
    rw [List.append_assoc, List.dropWhile_append_of_pos hpre]
    obtain ⟨c, cs, rfl⟩ := List.exists_cons_of_ne_nil hne
    rw [List.cons_append, List.dropWhile_cons_of_neg (by simp [hh c rfl])]
  have hback : (post.reverse ++ xs.reverse).dropWhile isBlank = xs.reverse := by
    rw [List.dropWhile_append_of_pos (by simpa using hpost)]
    cases hx : xs.reverse with
    | nil => rfl
    | cons c cs =>
      have hc : xs.getLast? = some c := by
        rw [← List.head?_reverse, hx]
        rfl
      rw [List.dropWhile_cons_of_neg (by simp [hl c hc])]
  rw [trimChars, hfront, List.reverse_append, hback, List.reverse_reverse]

/-- A non-empty text with non-blank ends trims to itself. -/
theorem trimChars_of_ends {xs : List Char} (hne : xs ≠ [])
    (hh : ∀ c, xs.head? = some c → isBlank c = false)
    (hl : ∀ c, xs.getLast? = some c → isBlank c = false) : trimChars xs = xs := by
  simpa using @trimChars_margins [] xs [] (by simp) (by simp) hne hh hl

/-- A trimmed text starts and ends with a character that is not blank. -/
theorem trimChars_ends {cs : List Char} (h : trimChars cs = cs) :
    (∀ c, cs.head? = some c → isBlank c = false) ∧
      (∀ c, cs.getLast? = some c → isBlank c = false) := by
  have hcs : cs = ((cs.dropWhile isBlank).reverse.dropWhile isBlank).reverse := h.symm
  generalize hxs : cs.dropWhile isBlank = xs at hcs
  generalize hys : xs.reverse.dropWhile isBlank = ys at hcs
  have hlast : ∀ c, ys.head? = some c → isBlank c = false := by
    intro c hc
    have := List.head?_dropWhile_not isBlank xs.reverse
    rw [hys, hc] at this
    exact this
  refine ⟨fun c hc => ?_, fun c hc => ?_⟩
  · -- the first character of `cs` is the first character left after dropping blanks
    rw [hcs, List.head?_reverse] at hc
    have hsplit : xs.reverse = xs.reverse.takeWhile isBlank ++ ys := by
      rw [← hys, List.takeWhile_append_dropWhile]
    have hx : xs.head? = some c := by
      rw [← List.getLast?_reverse, hsplit, List.getLast?_append, hc]
      rfl
    have := List.head?_dropWhile_not isBlank cs
    rw [hxs, hx] at this
    exact this
  · rw [hcs, List.getLast?_reverse] at hc
    exact hlast c hc

/-- Trimming twice trims once: what is left after trimming starts and ends with a character
that is not blank. -/
theorem trimChars_trimChars (cs : List Char) : trimChars (trimChars cs) = trimChars cs := by
  by_cases h : trimChars cs = []
  · rw [h]
    rfl
  · refine trimChars_of_ends h (fun c hc => ?_) (fun c hc => ?_)
    · -- the first character left is the first of `cs` after its leading blanks
      generalize hX : cs.dropWhile isBlank = X
      have hsplit : X.reverse = X.reverse.takeWhile isBlank ++ X.reverse.dropWhile isBlank :=
        (List.takeWhile_append_dropWhile ..).symm
      have htr : trimChars cs = (X.reverse.dropWhile isBlank).reverse := by rw [trimChars, hX]
      rw [htr] at hc
      have hx : X.head? = some c := by
        rw [← List.getLast?_reverse, hsplit, List.getLast?_append, ← List.head?_reverse, hc]
        rfl
      have := List.head?_dropWhile_not isBlank cs
      rw [hX, hx] at this
      simpa using this
    · rw [trimChars, List.getLast?_reverse] at hc
      have := List.head?_dropWhile_not isBlank ((cs.dropWhile isBlank).reverse)
      rw [hc] at this
      simpa using this

theorem trim_trim (s : String) : trim (trim s) = trim s := by
  simp only [trim, String.toList_ofList, trimChars_trimChars]

/-- The words of a text split at a blank are the words of the two sides. -/
theorem wordsOf_append_blank {a b : List Char} {c : Char} (hc : isBlank c = true) :
    wordsOf (a ++ c :: b) = wordsOf a ++ wordsOf b := by
  simp only [wordsOf, List.splitOnP_append_cons a b hc, List.filter_append]

/-- A non-empty text with no blank is one word. -/
theorem wordsOf_eq_single {a : List Char} (ha : a ≠ []) (h : ∀ c ∈ a, isBlank c = false) :
    wordsOf a = [a] := by
  simp [wordsOf, List.splitOnP_eq_singleton h, ha]

/-! ## Searching -/

/-- A text whose first character is not the first character of `s` does not start with
`s`. -/
theorem startsWith_eq_false_of_head {cs : List Char} {s : String} {h : Char}
    (hs : s.toList.head? = some h) (hc : cs.head? ≠ some h) : startsWith cs s = false := by
  obtain ⟨t, ht⟩ : ∃ t, s.toList = h :: t := by
    cases hx : s.toList with
    | nil => simp [hx] at hs
    | cons x t =>
      rw [hx] at hs
      exact ⟨t, by simp_all⟩
  cases cs with
  | nil => simp [startsWith, ht]
  | cons c cs =>
    have hch : h ≠ c := fun e => hc (by simp [e])
    simp [startsWith, ht, List.isPrefixOf, hch]

/-- The search for a text finds it exactly where it occurs as a contiguous piece. -/
theorem containsText_eq_true_iff {cs : List Char} {s : String} :
    containsText cs s = true ↔ s.toList <:+: cs := by
  induction cs with
  | nil => simp only [containsText, List.infix_nil, String.isEmpty_iff, String.toList_eq_nil_iff]
  | cons c cs ih =>
    simp only [containsText, startsWith, Bool.or_eq_true, List.isPrefixOf_iff_prefix, ih]
    exact List.infix_cons_iff.symm

/-- A piece that lacks the first character of a text holds no occurrence of it, and no
occurrence starts in it. -/
theorem containsText_append_of_not_mem {a b : List Char} {s : String} {h : Char}
    (hs : s.toList.head? = some h) (ha : h ∉ a) :
    containsText (a ++ b) s = containsText b s := by
  induction a with
  | nil => rfl
  | cons c a ih =>
    have hnot : startsWith (c :: (a ++ b)) s = false :=
      startsWith_eq_false_of_head hs (fun hc => ha (by simp_all))
    rw [List.cons_append, containsText, hnot, Bool.false_or]
    exact ih (fun hm => ha (List.mem_cons_of_mem c hm))

/-! ## Removing and scanning -/

/-- A removal that finds no occurrence anywhere keeps the text. -/
theorem removeMatches_eq_self {matchLen : Option Char → List Char → Nat} :
    ∀ (prev : Option Char) (cs : List Char), (∀ p t, t ≠ [] → t <:+ cs → matchLen p t = 0) →
      removeMatches matchLen prev cs = cs
  | _, [], _ => by rw [removeMatches]
  | prev, c :: rest, h => by
    have h0 : matchLen prev (c :: rest) = 0 := h prev (c :: rest) (by simp) (List.suffix_refl _)
    rw [removeMatches, dif_pos h0,
      removeMatches_eq_self (some c) rest fun p t ht hs => h p t ht (hs.trans (List.suffix_cons c rest))]

/-! ## Finding occurrences -/

section Occurrences

variable {α : Type} {find : Option Char → List Char → Option (α × Nat)}

/-- The character before what follows a prefix `c :: p` of a text is the last character of
`p`, or `c` when `p` is empty. -/
theorem getLast?_cons_or (c : Char) (p : List Char) (prev : Option Char) :
    (c :: p).getLast?.or prev = p.getLast?.or (some c) := by
  cases h : p.getLast? <;> simp [List.getLast?_cons, h]

theorem getLast?_append_or (a b : List Char) (prev : Option Char) :
    (a ++ b).getLast?.or prev = b.getLast?.or (a.getLast?.or prev) := by
  rw [List.getLast?_append, Option.or_assoc]

/-- `find` finds nothing at any position of `a` when `b` follows it and `prev` stands
before it. -/
def Quiet (find : Option Char → List Char → Option (α × Nat)) (prev : Option Char)
    (a b : List Char) : Prop :=
  ∀ p s, a = p ++ s → s ≠ [] → find (p.getLast?.or prev) (s ++ b) = none

theorem Quiet.nil (prev : Option Char) (b : List Char) : Quiet find prev [] b :=
  fun _ _ hps hs => absurd (List.append_eq_nil_iff.mp hps.symm).2 hs

theorem quiet_singleton {prev : Option Char} {c : Char} {b : List Char}
    (h : find prev (c :: b) = none) : Quiet find prev [c] b := by
  intro p s hps hs
  cases p with
  | nil =>
    simp only [List.nil_append] at hps
    subst hps
    exact h
  | cons d p =>
    exact absurd (List.append_eq_nil_iff.mp (List.cons.inj hps).2.symm).2 hs

/-- Quietness over two stretches, each with what follows it and the character before it. -/
theorem Quiet.append {prev : Option Char} {a₁ a₂ b : List Char}
    (h₁ : Quiet find prev a₁ (a₂ ++ b)) (h₂ : Quiet find (a₁.getLast?.or prev) a₂ b) :
    Quiet find prev (a₁ ++ a₂) b := by
  intro p s hps hs
  rcases List.append_eq_append_iff.mp hps with ⟨t, hp, ha₂⟩ | ⟨t, ha₁, hst⟩
  · -- the position lies in `a₂`, behind `t`
    rw [hp, getLast?_append_or]
    exact h₂ t s ha₂ hs
  · -- the position lies in `a₁`, or starts `a₂` when nothing of `a₁` is left
    subst ha₁ hst
    cases t with
    | nil =>
      have := h₂ [] a₂ rfl (by simpa using hs)
      simpa using this
    | cons c t =>
      have := h₁ p (c :: t) rfl (by simp)
      simpa using this

/-- Where `find` finds nothing, the scan moves on by one character. -/
theorem occurrences_cons_of_none {prev : Option Char} {pos : Nat} {c : Char} {rest : List Char}
    (h : find prev (c :: rest) = none) :
    occurrences find prev pos (c :: rest) = occurrences find (some c) (pos + 1) rest := by
  rw [occurrences, h]

/-- A stretch at none of whose positions `find` finds anything is passed over. -/
theorem occurrences_append_of_quiet :
    ∀ (a : List Char) {b : List Char} {prev : Option Char} {pos : Nat}, Quiet find prev a b →
      occurrences find prev pos (a ++ b) =
        occurrences find (a.getLast?.or prev) (pos + a.length) b
  | [], b, prev, pos, _ => by simp
  | c :: a, b, prev, pos, h => by
    have h0 : find prev (c :: (a ++ b)) = none := h [] (c :: a) rfl (by simp)
    have ha : Quiet find (some c) a b := fun p s hps hs => by
      have := h (c :: p) s (by rw [hps]; rfl) hs
      rwa [getLast?_cons_or] at this
    rw [List.cons_append, occurrences_cons_of_none h0, occurrences_append_of_quiet a ha,
      getLast?_cons_or, List.length_cons, Nat.add_assoc, Nat.add_comm 1]

/-- An occurrence that `find` reports at the start of `m ++ b`, of the length of `m`, is
listed, and the scan resumes behind `m`. -/
theorem occurrences_append_of_found {prev : Option Char} {pos : Nat} {m b : List Char} {a : α}
    (hm : m ≠ []) (h : find prev (m ++ b) = some (a, m.length)) :
    occurrences find prev pos (m ++ b) =
      (a, pos, m.length) :: occurrences find m.getLast? (pos + m.length) b := by
  obtain ⟨c, t, rfl⟩ := List.exists_cons_of_ne_nil hm
  have hlast : (c :: t ++ b)[(c :: t).length - 1]? = (c :: t).getLast? := by
    rw [List.getElem?_append_left (by simp), List.getLast?_eq_getElem?]
  rw [List.cons_append, occurrences, ← List.cons_append, h]
  dsimp only
  rw [dif_pos (by simp), hlast, List.drop_left]

end Occurrences

/-! ## First stops -/

/-- Dropping characters that are no stops keeps the first stop. -/
theorem find?_dropWhile {p q : Char → Bool} (h : ∀ c, p c = true → q c = false)
    (cs : List Char) : (cs.dropWhile p).find? q = cs.find? q := by
  have hsplit : cs.find? q = (cs.takeWhile p ++ cs.dropWhile p).find? q := by
    rw [List.takeWhile_append_dropWhile]
  have htake : (cs.takeWhile p).find? q = none := List.find?_eq_none.mpr fun c hc => by
    simp [h c (List.all_eq_true.mp List.all_takeWhile c hc)]
  rw [hsplit, List.find?_append, htake, Option.none_or]

/-- The first stop of a text is the first character left once everything else is dropped. -/
theorem find?_of_head?_dropWhile {q : Char → Bool} {cs : List Char} {c : Char}
    (h : (cs.dropWhile (fun d => !q d)).head? = some c) : cs.find? q = some c := by
  rw [← find?_dropWhile (p := fun d => !q d) (by simp)]
  obtain ⟨r, hr⟩ : ∃ r, cs.dropWhile (fun d => !q d) = c :: r := by
    cases hd : cs.dropWhile (fun d => !q d) with
    | nil => simp [hd] at h
    | cons d r => simp_all
  have hc := List.head?_dropWhile_not (fun d => !q d) cs
  rw [hr] at hc ⊢
  simp_all

/-- A text with a stop in `s` has its first stop in `s`, whatever follows. -/
theorem find?_append_of_mem {q : Char → Bool} {s : List Char} {c : Char} (hc : c ∈ s)
    (hq : q c = true) (t : List Char) :
    ∃ d ∈ s, q d = true ∧ (s ++ t).find? q = some d := by
  cases hs : s.find? q with
  | none =>
    rw [List.find?_eq_none] at hs
    exact absurd hq (hs c hc)
  | some d =>
    exact ⟨d, List.mem_of_find?_eq_some hs, List.find?_some hs, by simp [hs]⟩

end Breadboard.Text
