import Mathlib.Data.List.Infix
import Breadboard.Proofs.Header.Names

/-!
# Scanners that open with a keyword

Three scanners of a header look for a declaration that opens with a keyword standing as a
whole word: a constant global (`const`), a class head (`class`) and an access label
(`public`, `private`, `protected`). Wherever one of them finds something, its keyword stands
at a word boundary followed by a blank or `:`, and the first of its stop characters in the
text is its goal: `;` before any parenthesis for a constant global, `{` before any `;` for a
class head, `:` before any `;` for a label. `KeywordScanner` records the two facts, and
`constScanner`, `classScanner` and `labelScanner` prove them of the three scanners.

From the two facts alone follow the stretches of text where such a scanner finds nothing
(`Quiet`): a name that is no keyword, a fixed text that clashes with every keyword, a text
without the keywords followed by a newline, and a text whose first stop is another one.
-/

namespace Breadboard.Header

open Text

/-! ## Keywords and stops -/

/-- The word `w` starts `cs` at a word boundary and is followed by a blank or `:`. -/
def KeywordAt (w : String) (prev : Option Char) (cs : List Char) : Prop :=
  isWordBoundary prev cs.head? = true ∧
    ∃ c r, cs = w.toList ++ c :: r ∧ (isBlank c = true ∨ c = ':')

/-- What a scanner for a declaration that opens with a keyword needs wherever it finds
something: one of `words` stands there as a keyword, and the first character of the text
that is a `stop` is `goal`. -/
structure KeywordScanner {α : Type} (find : Option Char → List Char → Option (α × Nat))
    (words : List String) (stop : Char → Bool) (goal : Char) : Prop where
  keyword : ∀ {prev cs x}, find prev cs = some x → ∃ w ∈ words, KeywordAt w prev cs
  firstStop : ∀ {prev cs x}, find prev cs = some x → cs.find? stop = some goal

theorem eq_append_of_startsWith {cs : List Char} {w : String} (h : startsWith cs w = true) :
    cs = w.toList ++ cs.drop w.length := by
  rw [← String.length_toList]
  exact (List.prefix_iff_eq_append.mp (List.isPrefixOf_iff_prefix.mp h)).symm

theorem startsWith_append_self (w : String) (r : List Char) :
    startsWith (w.toList ++ r) w = true :=
  List.isPrefixOf_iff_prefix.mpr (List.prefix_append _ _)

/-- A guard of a scanner that let it through held. -/
theorem guard_holds {b : Prop} [Decidable b] {a : Unit}
    (h : (if b then some () else none) = some a) : b := by
  by_cases hb : b
  · exact hb
  · rw [if_neg hb] at h
    cases h

theorem exists_cons_of_takeWhile {p : Char → Bool} {l : List Char}
    (h : (l.takeWhile p).isEmpty = false) : ∃ c r, l = c :: r ∧ p c = true := by
  cases l with
  | nil => simp at h
  | cons c r =>
    cases hc : p c
    · simp [hc] at h
    · exact ⟨c, r, rfl, hc⟩

/-- What follows a keyword that blanks and a `:` follow starts with a blank or `:`. -/
theorem head_of_dropWhile_colon {l : List Char} (h : (l.dropWhile isBlank).head? = some ':') :
    ∃ c r, l = c :: r ∧ (isBlank c = true ∨ c = ':') := by
  cases l with
  | nil => simp at h
  | cons c r =>
    refine ⟨c, r, rfl, ?_⟩
    cases hc : isBlank c
    · simp [hc] at h
      exact .inr h
    · exact .inl rfl

/-- A stop that only characters of some class can be is never reached by skipping another
class that has none of them. -/
theorem stop_false_of_class {k q : Char → Bool} {stops : List Char}
    (hq : ∀ c, q c = true → c ∈ stops) (hk : stops.all (fun c => !k c) = true) {c : Char}
    (hc : k c = true) : q c = false := by
  cases h : q c
  · rfl
  · have := List.all_eq_true.mp hk c (hq c h)
    rw [hc] at this
    cases this

theorem find?_drop_one {q : Char → Bool} {l : List Char} {c : Char} (h : l.head? = some c)
    (hc : q c = false) : (l.drop 1).find? q = l.find? q := by
  cases l with
  | nil => simp at h
  | cons d r =>
    simp only [List.head?_cons, Option.some.injEq] at h
    subst h
    simp [hc]

theorem find?_of_head? {q : Char → Bool} {l : List Char} {c : Char} (h : l.head? = some c)
    (hc : q c = true) : l.find? q = some c := by
  cases l with
  | nil => simp at h
  | cons d r =>
    simp only [List.head?_cons, Option.some.injEq] at h
    subst h
    simp [hc]

/-- A keyword's letters are no stop of the three scanners. -/
theorem find?_keyword_append {q : Char → Bool} {w : String} (h : w.toList.all (fun c => !q c) = true)
    (r : List Char) : (w.toList ++ r).find? q = r.find? q := by
  rw [List.find?_append, List.find?_eq_none.mpr, Option.none_or]
  intro c hc
  simpa using List.all_eq_true.mp h c hc

/-! ## The three scanners -/

/-- The stops of a constant global: `;` and the parentheses. -/
def constStop (c : Char) : Bool :=
  c == ';' || c == '(' || c == ')'

theorem constStop_mem {c : Char} (h : constStop c = true) : c ∈ [';', '(', ')'] := by
  simp only [constStop, Bool.or_eq_true, beq_iff_eq] at h
  rcases h with (rfl | rfl) | rfl <;> simp

/-- A constant global `const TYPE NAME = VALUE;` opens with `const` and reaches its `;`
before any parenthesis. -/
theorem constScanner : KeywordScanner constGlobalAt ["const"] constStop ';' where
  keyword := by
    intro prev cs x h
    simp only [constGlobalAt, spanClass, Option.bind_eq_some_iff, bind, pure, guard,
      failure] at h
    obtain ⟨_, h1, _, h2, -⟩ := h
    have h1 := guard_holds h1
    have h2 := guard_holds h2
    simp only [Bool.and_eq_true] at h1 h2
    obtain ⟨c, r, hr, hc⟩ := exists_cons_of_takeWhile (Bool.not_eq_true' _ ▸ h2.1.1.1)
    refine ⟨"const", List.mem_singleton_self _, h1.1, c, r, ?_, .inl hc⟩
    rw [eq_append_of_startsWith h1.2]
    exact congrArg _ hr
  firstStop := by
    intro prev cs x h
    simp only [constGlobalAt, spanClass, Option.bind_eq_some_iff, bind, pure, guard,
      failure] at h
    obtain ⟨_, h1, _, -, _, h3, _, h4, -⟩ := h
    have h1 := guard_holds h1
    have h3 := guard_holds h3
    have h4 := guard_holds h4
    have hblank : ∀ c, isBlank c = true → constStop c = false :=
      fun _ => stop_false_of_class (fun _ => constStop_mem) (by decide)
    have hword : ∀ c, isWordChar c = true → constStop c = false :=
      fun _ => stop_false_of_class (fun _ => constStop_mem) (by decide)
    -- walk back from the `;` over the value's blanks, the `=`, and the words and gaps
    have hstop := find?_of_head?_dropWhile (q := constStop) h4
    rw [find?_dropWhile hblank, find?_drop_one h3 (by rfl), find?_dropWhile hblank,
      find?_dropWhile hword, find?_dropWhile hblank, find?_dropWhile hword,
      find?_dropWhile hblank] at hstop
    simp only [Bool.and_eq_true] at h1
    rw [eq_append_of_startsWith h1.2, find?_keyword_append (by rfl)]
    exact hstop

/-- The stops of a class head: `{` and `;`. -/
def classStop (c : Char) : Bool :=
  c == '{' || c == ';'

theorem classStop_mem {c : Char} (h : classStop c = true) : c ∈ ['{', ';'] := by
  simp only [classStop, Bool.or_eq_true, beq_iff_eq] at h
  rcases h with rfl | rfl <;> simp

/-- A class head `class NAME {` opens with `class` and reaches its `{` before any `;`. -/
theorem classScanner : KeywordScanner classHeadAt ["class"] classStop '{' where
  keyword := by
    intro prev cs x h
    simp only [classHeadAt, spanClass, Option.bind_eq_some_iff, bind, pure, guard,
      failure] at h
    obtain ⟨_, h1, _, h2, -⟩ := h
    have h1 := guard_holds h1
    have h2 := guard_holds h2
    simp only [Bool.and_eq_true] at h1 h2
    obtain ⟨c, r, hr, hc⟩ := exists_cons_of_takeWhile (Bool.not_eq_true' _ ▸ h2.1)
    refine ⟨"class", List.mem_singleton_self _, h1.1, c, r, ?_, .inl hc⟩
    rw [eq_append_of_startsWith h1.2]
    exact congrArg _ hr
  firstStop := by
    intro prev cs x h
    simp only [classHeadAt, spanClass, Option.bind_eq_some_iff, bind, pure, guard,
      failure] at h
    obtain ⟨_, h1, _, -, _, h3, -⟩ := h
    have h1 := guard_holds h1
    have h3 := guard_holds h3
    have hblank : ∀ c, isBlank c = true → classStop c = false :=
      fun _ => stop_false_of_class (fun _ => classStop_mem) (by decide)
    have hword : ∀ c, isWordChar c = true → classStop c = false :=
      fun _ => stop_false_of_class (fun _ => classStop_mem) (by decide)
    simp only [Bool.and_eq_true] at h1
    have hcs : cs = "class".toList ++ cs.drop 5 := eq_append_of_startsWith h1.2
    rw [hcs, find?_keyword_append (by rfl), ← find?_dropWhile hblank, ← find?_dropWhile hword,
      ← find?_dropWhile hblank]
    -- after the name and its blanks comes the `{`, or a base list that runs up to it
    generalize (((cs.drop 5).dropWhile isBlank).dropWhile isWordChar).dropWhile isBlank = R at h3 ⊢
    cases R with
    | nil => simp at h3
    | cons c r =>
      by_cases hc : c = ':'
      · subst hc
        have hr := find?_of_head?_dropWhile (q := classStop) h3
        simpa [classStop] using hr
      · have hhead : (c :: r).head? = some '{' := by
          revert h3
          split
          · next r' heq => exact absurd (List.cons.inj heq).1 hc
          · exact id
        exact find?_of_head? hhead (by rfl)

/-- The stops of an access label: `:` and `;`. -/
def labelStop (c : Char) : Bool :=
  c == ':' || c == ';'

theorem labelStop_mem {c : Char} (h : labelStop c = true) : c ∈ [':', ';'] := by
  simp only [labelStop, Bool.or_eq_true, beq_iff_eq] at h
  rcases h with rfl | rfl <;> simp

/-- An access label opens with `public`, `private` or `protected` and reaches its `:` before
any `;`. -/
theorem labelScanner :
    KeywordScanner accessLabelAt ["public", "private", "protected"] labelStop ':' where
  keyword := by
    intro prev cs x h
    simp only [accessLabelAt, spanClass, Option.bind_eq_some_iff, bind, pure, guard,
      failure] at h
    obtain ⟨_, h1, w, hw, _, h3, -⟩ := h
    have h1 := guard_holds h1
    have h3 := guard_holds h3
    obtain ⟨c, r, hr, hc⟩ := head_of_dropWhile_colon h3
    have hcs := eq_append_of_startsWith (List.find?_some hw)
    refine ⟨w, List.mem_of_find?_eq_some hw, h1, c, r, ?_, hc⟩
    rw [hcs]
    exact congrArg _ hr
  firstStop := by
    intro prev cs x h
    simp only [accessLabelAt, spanClass, Option.bind_eq_some_iff, bind, pure, guard,
      failure] at h
    obtain ⟨_, -, w, hw, _, h3, -⟩ := h
    have h3 := guard_holds h3
    have hblank : ∀ c, isBlank c = true → labelStop c = false :=
      fun _ => stop_false_of_class (fun _ => labelStop_mem) (by decide)
    have hletters : w.toList.all (fun c => !labelStop c) = true := by
      have hmem := List.mem_of_find?_eq_some hw
      simp only [List.mem_cons, List.not_mem_nil, or_false] at hmem
      rcases hmem with rfl | rfl | rfl <;> rfl
    rw [eq_append_of_startsWith (List.find?_some hw), find?_keyword_append hletters,
      ← find?_dropWhile hblank]
    exact find?_of_head? h3 (by rfl)

/-! ## Where a keyword scanner finds nothing -/

/-- Neither of two texts is a prefix of the other: then no text that starts with the first
starts with the second. -/
def clashes (s w : List Char) : Bool :=
  !(s.isPrefixOf w) && !(w.isPrefixOf s)

theorem isPrefixOf_append_of_clashes :
    ∀ {s w : List Char}, clashes s w = true → ∀ b, w.isPrefixOf (s ++ b) = false
  | [], _, h, _ => by simp [clashes] at h
  | _ :: _, [], h, _ => by simp [clashes] at h
  | x :: s, y :: w, h, b => by
    by_cases hxy : y = x
    · subst hxy
      simp only [clashes, List.isPrefixOf_cons_cons_self, Bool.and_eq_true, Bool.not_eq_true'] at h
      simp only [List.cons_append, List.isPrefixOf_cons_cons_self]
      exact isPrefixOf_append_of_clashes (by simp [clashes, h.1, h.2]) b
    · simp [List.isPrefixOf_cons_cons, hxy]

/-- A text that does not hold `w` does not start with it at any position, and neither does
it with a character that `w` lacks behind it. -/
theorem startsWith_append_cons_eq_false {s : List Char} {w : String} {c : Char}
    (hs : startsWith s w = false) (hc : c ∉ w.toList) (r : List Char) :
    startsWith (s ++ c :: r) w = false := by
  unfold startsWith at hs ⊢
  generalize w.toList = l at hs hc
  induction l generalizing s with
  | nil => simp at hs
  | cons y l ih =>
    cases s with
    | nil =>
      have hyc : y ≠ c := fun e => hc (e ▸ List.mem_cons_self)
      simp [List.isPrefixOf_cons_cons, hyc]
    | cons x s =>
      by_cases hxy : y = x
      · subst hxy
        simp only [List.isPrefixOf_cons_cons_self] at hs
        simp only [List.cons_append, List.isPrefixOf_cons_cons_self]
        exact ih hs (fun h => hc (List.mem_cons_of_mem y h))
      · simp [List.isPrefixOf_cons_cons, hxy]

theorem startsWith_of_suffix_eq_false {v : List Char} {w : String}
    (hv : containsText v w = false) : ∀ s, s <:+ v → startsWith s w = false := by
  induction v with
  | nil =>
    intro s hs
    rw [List.suffix_nil.mp hs]
    simp only [containsText] at hv
    have hne : w.toList ≠ [] := fun h => by simp [String.toList_eq_nil_iff.mp h] at hv
    obtain ⟨c, t, hct⟩ := List.exists_cons_of_ne_nil hne
    simp [startsWith, hct]
  | cons c v ih =>
    simp only [containsText, Bool.or_eq_false_iff] at hv
    intro s hs
    rcases List.suffix_cons_iff.mp hs with rfl | hs
    · exact hv.1
    · exact ih hv.2 s hs

section Quietness

variable {α : Type} {find : Option Char → List Char → Option (α × Nat)} {words : List String}
  {stop : Char → Bool} {goal : Char}

namespace KeywordScanner

variable (hs : KeywordScanner find words stop goal)
include hs

theorem none_of_startsWith {prev : Option Char} {cs : List Char}
    (h : ∀ w ∈ words, startsWith cs w = false) : find prev cs = none := by
  cases hf : find prev cs with
  | none => rfl
  | some x =>
    obtain ⟨w, hw, -, c, r, hcs, -⟩ := hs.keyword hf
    have := h w hw
    rw [hcs, startsWith_append_self] at this
    cases this

theorem none_of_find? {prev : Option Char} {cs : List Char} (h : cs.find? stop ≠ some goal) :
    find prev cs = none := by
  cases hf : find prev cs with
  | none => rfl
  | some x => exact absurd (hs.firstStop hf) h

/-- Inside a run of word characters no keyword starts. -/
theorem none_of_inside {a c : Char} (ha : isWordChar a = true) (hc : isWordChar c = true)
    (r : List Char) : find (some a) (c :: r) = none := by
  cases hf : find (some a) (c :: r) with
  | none => rfl
  | some x =>
    obtain ⟨w, -, hb, -⟩ := hs.keyword hf
    simp [isWordBoundary, ha, hc] at hb

/-- A name that is no keyword does not open with a keyword, when what follows it is no
character of a name. -/
theorem none_of_name (hwords : ∀ w ∈ words, w ∈ cppKeywords ∧ ∀ c ∈ w.toList, IsIdentChar c)
    {N : String} (hN : IsName N) {d : Char} (hd : ¬ IsIdentChar d) (prev : Option Char)
    (rest : List Char) : find prev (N.toList ++ d :: rest) = none := by
  cases hf : find prev (N.toList ++ d :: rest) with
  | none => rfl
  | some x =>
    exfalso
    obtain ⟨w, hw, -, c, r, hcs, hc⟩ := hs.keyword hf
    obtain ⟨hkw, hchars⟩ := hwords w hw
    rcases List.append_eq_append_iff.mp hcs with ⟨t, hwN, hdt⟩ | ⟨t, hNw, hct⟩
    · -- the keyword reaches past the name: the name is the keyword, or `d` is in it
      cases t with
      | nil =>
        rw [List.append_nil] at hwN
        exact hN.2 (String.toList_inj.mp hwN ▸ hkw)
      | cons e t =>
        have hde : d = e := (List.cons.inj hdt).1
        exact hd (hde ▸ hchars e (by rw [hwN]; simp))
    · -- the name reaches past the keyword: the name is the keyword, or `c` is in it
      cases t with
      | nil =>
        rw [List.append_nil] at hNw
        exact hN.2 (String.toList_inj.mp hNw ▸ hkw)
      | cons e t =>
        have hce : c = e := (List.cons.inj hct).1
        have he : IsIdentChar e := hN.chars e (by rw [hNw]; simp)
        rcases hc with hc | hc
        · rw [hce, he.isBlank_eq_false] at hc
          cases hc
        · exact he.ne (d := ':') (by decide) (by decide) (hce ▸ hc)

/-- A scanner for keywords finds nothing in a name that is no keyword. -/
theorem quiet_name (hwords : ∀ w ∈ words, w ∈ cppKeywords ∧ ∀ c ∈ w.toList, IsIdentChar c)
    {N : String} (hN : IsName N) {d : Char} (hd : ¬ IsIdentChar d) (prev : Option Char)
    (rest : List Char) : Quiet find prev N.toList (d :: rest) := by
  intro p s hps hs'
  cases p with
  | nil =>
    simp only [List.nil_append] at hps
    subst hps
    exact hs.none_of_name hwords hN hd prev rest
  | cons a p =>
    -- inside the name: the characters on both sides are word characters
    obtain ⟨c, t, rfl⟩ := List.exists_cons_of_ne_nil hs'
    have hlast : (a :: p).getLast?.or prev = some ((a :: p).getLast (by simp)) := by
      rw [List.getLast?_eq_some_getLast (by simp), Option.some_or]
    rw [hlast, List.cons_append]
    refine hs.none_of_inside ((hN.chars _ ?_).isWordChar) ((hN.chars c ?_).isWordChar) _
    · rw [hps]
      exact List.mem_append_left _ (List.getLast_mem _)
    · rw [hps]
      simp

/-- A scanner for keywords finds nothing in a text each of whose non-empty tails clashes
with every keyword. -/
theorem quiet_of_clashes {a : List Char}
    (h : a.tails.all (fun s => s.isEmpty || words.all fun w => clashes s w.toList) = true)
    (prev : Option Char) (b : List Char) : Quiet find prev a b := by
  intro p s hps hs'
  refine hs.none_of_startsWith fun w hw => ?_
  have hmem : s ∈ a.tails := (List.mem_tails s a).mpr ⟨p, hps.symm⟩
  have := List.all_eq_true.mp h s hmem
  simp only [Bool.or_eq_true, List.isEmpty_iff, hs', false_or, List.all_eq_true] at this
  exact isPrefixOf_append_of_clashes (this w hw) b

/-- A scanner for keywords finds nothing in a text without its keywords that ends a line. -/
theorem quiet_of_containsText {v : List Char} (hv : ∀ w ∈ words, containsText v w = false)
    (hnl : ∀ w ∈ words, '\n' ∉ w.toList) (prev : Option Char) (rest : List Char) :
    Quiet find prev v ('\n' :: rest) := by
  intro p s hps _
  refine hs.none_of_startsWith fun w hw => ?_
  have hsuf : s <:+ v := ⟨p, hps.symm⟩
  exact startsWith_append_cons_eq_false (startsWith_of_suffix_eq_false (hv w hw) s hsuf)
    (hnl w hw) rest

/-- A scanner for keywords finds nothing where the first stop is not its goal. -/
theorem quiet_of_stops {a b : List Char}
    (h : ∀ p s, a = p ++ s → s ≠ [] → (s ++ b).find? stop ≠ some goal) (prev : Option Char) :
    Quiet find prev a b :=
  fun p s hps hs' => hs.none_of_find? (h p s hps hs')

end KeywordScanner

end Quietness

end Breadboard.Header
