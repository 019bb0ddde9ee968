import Breadboard.Proofs.Header.Lines

/-!
# Declaration lines read as prototypes

A declaration line `HEAD(PARAMS);` is found whole by the prototype scanner: its head runs to
the `(`, its parameter list to the `)` before the `;`, and nothing stands between `)` and
`;`. The head splits into the return part and the name: for `RET NAME` the spelling of `RET`
and `NAME`, for a constructor `CLS` an empty return part and `CLS`.

Main statements: `membersFrom_memberLines` (the members of a class section are read in
order), `linesFrom_found` and `linesFrom_skip` (at line starts a declaration line is read as
what its head yields, and a line without a declaration is passed over), and
`splitHead_typedName_operator` (a name that merely starts with `operator` is skipped as an
operator).
-/

namespace Breadboard.Header

open Text

/-! ## The prototype of a declaration line -/

theorem spanClass_append_cons {p : Char → Bool} {xs ys : List Char} {c : Char}
    (hxs : ∀ d ∈ xs, p d = true) (hc : p c = false) :
    spanClass p (xs ++ c :: ys) = (xs, c :: ys) := by
  simp [spanClass, List.takeWhile_append_of_pos hxs, List.dropWhile_append_of_pos hxs, hc]

theorem splitAtLast_close (P : List Char) : splitAtLast ')' (P ++ [')']) = some (P, []) := by
  simp [splitAtLast]

/-- A head of characters that do not break it, a parameter list without `;` and braces, then
`);`: the prototype scanner takes all of it. -/
theorem prototypeAt_call {x : Char} {X P : List Char} (rest : List Char)
    (hx : startsHead x = true) (hX : ∀ c ∈ X, breaksHead c = false)
    (hP : ∀ c ∈ P, (c == ';' || c == '{' || c == '}') = false) :
    prototypeAt ((x :: X) ++ '(' :: P ++ ')' :: ';' :: rest) =
      some (x :: X, P, X.length + P.length + 4) := by
  have hmid : spanClass (fun d => !breaksHead d) (X ++ '(' :: (P ++ ')' :: ';' :: rest)) =
      (X, '(' :: (P ++ ')' :: ';' :: rest)) :=
    spanClass_append_cons (fun d hd => by simp [hX d hd]) rfl
  have hregion : spanClass (fun d => !(d == ';' || d == '{' || d == '}'))
      ((P ++ [')']) ++ ';' :: rest) = (P ++ [')'], ';' :: rest) := by
    refine spanClass_append_cons (fun d hd => ?_) rfl
    rcases List.mem_append.mp hd with hd | hd
    · simp [hP d hd]
    · rw [List.mem_singleton.mp hd]
      rfl
  simp only [List.append_assoc, List.cons_append, List.nil_append] at hregion
  rw [show (x :: X) ++ '(' :: P ++ ')' :: ';' :: rest = x :: (X ++ '(' :: (P ++ ')' :: ';' :: rest))
    by simp]
  simp only [prototypeAt, hx, if_true, hmid, hregion, List.head?_cons, splitAtLast_close]
  rw [if_pos (by rfl), List.length_append, List.length_singleton]
  simp only [Option.some.injEq, Prod.mk.injEq, true_and]
  omega

/-! ## Splitting a head -/

theorem isDigit_eq_false_of_isAlpha {c : Char} (h : c.isAlpha = true) : c.isDigit = false := by
  have hv : c.toNat = c.val.toNat := rfl
  simp only [Char.isAlpha, Char.isUpper, Char.isLower, Bool.or_eq_true, Bool.and_eq_true,
    decide_eq_true_eq, UInt32.le_iff_toNat_le] at h
  simp only [Char.isDigit, Bool.and_eq_false_iff, decide_eq_false_iff_not,
    UInt32.le_iff_toNat_le]
  simp at h ⊢
  omega

theorem IsIdentChar.isNameChar_eq {c : Char} (h : IsIdentChar c) : isNameChar c = true := by
  rcases h with h | rfl
  · simp [isNameChar, h]
  · rfl

theorem IsIdentChar.ne_tilde {c : Char} (h : IsIdentChar c) : c ≠ '~' :=
  h.ne (by decide) (by decide)

theorem statementWords_keywords : ∀ w ∈ statementWords, w ∈ cppKeywords := by
  decide

/-- A head that ends with a name after a part that does not end in a name character splits
into that name and the words of the part. -/
theorem splitHead_eq_decl (pre : List Char) {N : String} (hN : IsName N)
    (htrim : trimChars (pre ++ N.toList) = pre ++ N.toList)
    (hpre : ∀ c, pre.getLast? = some c → isNameChar c = false)
    (hop : (wordsOf (pre ++ N.toList)).any (fun w => startsWith w "operator") = false)
    (hret : statementWords.contains
      (" ".intercalate (((wordsOf pre).map String.ofList).dropWhile (leadingWords.contains ·))) =
        false) :
    splitHead (pre ++ N.toList) =
      .decl (" ".intercalate (((wordsOf pre).map String.ofList).dropWhile (leadingWords.contains ·)))
        N := by
  -- the name is the run of name characters at the end
  have hname : ((pre ++ N.toList).reverse.takeWhile isNameChar).reverse = N.toList := by
    have hN' : ∀ c ∈ N.toList.reverse, isNameChar c = true := fun c hc =>
      (hN.chars c (List.mem_reverse.mp hc)).isNameChar_eq
    have hrest : pre.reverse.takeWhile isNameChar = [] := by
      cases hr : pre.reverse with
      | nil => rfl
      | cons c r =>
        have hc : pre.getLast? = some c := by rw [← List.head?_reverse, hr]; rfl
        simp [hpre c hc]
    rw [List.reverse_append, List.takeWhile_append_of_pos hN', hrest, List.append_nil,
      List.reverse_reverse]
  have hbefore : (pre ++ N.toList).take ((pre ++ N.toList).length - N.toList.length) = pre :=
    List.take_left' (by simp)
  obtain ⟨c, r, hcr⟩ := List.exists_cons_of_ne_nil hN.ne_nil
  have hc : IsIdentChar c := hN.chars c (by simp [hcr])
  have hdigit : c.isDigit = false := by
    have := hN.1
    rw [hcr] at this
    simp only [isIdentifier, Bool.and_eq_true, Bool.or_eq_true, beq_iff_eq] at this
    rcases this.1 with h | rfl
    · exact isDigit_eq_false_of_isAlpha h
    · rfl
  have hN0 : N ≠ "" := fun h => hN.ne_nil (by simp [h])
  have hD : (Option.map Char.isDigit N.toList.head?).getD false = false := by
    simp [hcr, hdigit]
  have hT : '~' ∉ N.toList := fun h => (hN.chars _ h).ne_tilde rfl
  have hS : N ∉ statementWords := hN.not_mem statementWords_keywords
  have hR := hret
  simp only [Bool.eq_false_iff, ne_eq, List.elem_eq_mem, decide_eq_true_eq] at hR
  simp only [splitHead, Head.ofCut, htrim, hop, hname, hbefore, Bool.false_eq_true, if_false]
  split
  · -- a name never starts with `~`
    next r' h =>
    rw [hcr] at h
    exact absurd (List.cons.inj h).1 hc.ne_tilde
  · have hH : ¬ N.toList.head? = some '~' := by simp [hcr, hc.ne_tilde]
    simp [hN0, hD, hT, hS, hR, hH]

/-- The words of a spelling hold no operator and no leading storage word. -/
theorem spelling_words_operator (t : ValueType) :
    (wordsOf t.spelling.toList).any (fun w => startsWith w "operator") = false := by
  cases t <;> rfl

theorem returnPart_spelling (t : ValueType) :
    " ".intercalate (((wordsOf (t.spelling.toList ++ [' '])).map String.ofList).dropWhile
      (leadingWords.contains ·)) = t.spelling := by
  cases t <;> rfl

theorem statementWords_spelling (t : ValueType) : statementWords.contains t.spelling = false := by
  cases t <;> rfl

/-- A head `RET NAME` is trimmed already, and its words are those of the spelling of `RET`,
then `NAME`. -/
theorem typedName_trimmed_words (t : ValueType) {N : String} (hN : IsName N) :
    trimChars (t.spelling.toList ++ ' ' :: N.toList) = t.spelling.toList ++ ' ' :: N.toList ∧
      wordsOf (t.spelling.toList ++ ' ' :: N.toList) = wordsOf t.spelling.toList ++ [N.toList] := by
  obtain ⟨hne, hhead, hlast⟩ := typedName_ends t hN.1
  refine ⟨trimChars_of_ends hne hhead hlast, ?_⟩
  rw [wordsOf_append_blank (by rfl),
    wordsOf_eq_single hN.ne_nil fun c hc => (hN.chars c hc).isBlank_eq_false]

/-- A head `RET NAME` splits into the spelling of `RET` and `NAME`. -/
theorem splitHead_typedName (t : ValueType) {N : String} (hN : IsName N)
    (hop : startsWith N.toList "operator" = false) :
    splitHead (t.spelling.toList ++ ' ' :: N.toList) = .decl t.spelling N := by
  obtain ⟨htrim, hwords⟩ := typedName_trimmed_words t hN
  have heq : t.spelling.toList ++ ' ' :: N.toList = (t.spelling.toList ++ [' ']) ++ N.toList := by
    simp
  have h := splitHead_eq_decl (t.spelling.toList ++ [' ']) hN (heq ▸ htrim)
    (fun c hc => by
      rw [List.getLast?_concat, Option.some.injEq] at hc
      subst hc
      rfl)
    (by rw [← heq, hwords, List.any_append, spelling_words_operator]; simp [hop])
    (by rw [returnPart_spelling]; exact statementWords_spelling t)
  rw [returnPart_spelling] at h
  rw [heq]
  exact h

/-- A head `RET NAME` whose name starts with `operator` is taken for an operator and skipped,
although the name is a plain identifier. -/
theorem splitHead_typedName_operator (t : ValueType) {N : String} (hN : IsName N)
    (hop : startsWith N.toList "operator" = true) :
    splitHead (t.spelling.toList ++ ' ' :: N.toList) = .skip := by
  obtain ⟨htrim, hwords⟩ := typedName_trimmed_words t hN
  simp [splitHead, htrim, hwords, hop]

/-- A constructor's head `CLS` has an empty return part. -/
theorem splitHead_name {N : String} (hN : IsName N) (hop : startsWith N.toList "operator" = false) :
    splitHead N.toList = .decl "" N := by
  obtain ⟨c, r, hcr⟩ := List.exists_cons_of_ne_nil hN.ne_nil
  have hc : IsIdentChar c := hN.chars c (by simp [hcr])
  have hlast : ∀ d, N.toList.getLast? = some d → isBlank d = false := fun d hd =>
    (hN.chars d (List.mem_of_getLast? hd)).isBlank_eq_false
  have htrim : trimChars N.toList = N.toList := by
    exact trimChars_of_ends hN.ne_nil
      (fun d hd => by rw [hcr] at hd; cases hd; exact hc.isBlank_eq_false) hlast
  have h := splitHead_eq_decl [] hN (by simpa using htrim) (by simp)
    (by simp [wordsOf_eq_single hN.ne_nil fun c hc => (hN.chars c hc).isBlank_eq_false, hop])
    (by rfl)
  exact h

/-! ## The prototypes of declaration lines -/

/-- The prototype read off the line of a free function or method `RET NAME(PARAMS);`. -/
def typedPrototype (ret : ValueType) (name : String) (ps : List Parameter) : Prototype :=
  { returnPart := ret.spelling, name, params := String.ofList (paramsText ps),
    fragment := String.ofList (trimChars (protoText ret name ps)) }

/-- The prototype read off the line of a member of class `cls`, if it declares one. -/
def Member.prototype (cls : String) : Member → Option Prototype
  | .ctor ps => some
    { returnPart := "", name := cls, params := String.ofList (paramsText ps),
      fragment := String.ofList (trimChars ((Member.ctor ps).text cls)) }
  | .method ret name ps => some (typedPrototype ret name ps)
  | .label _ => none

theorem breaksHead_mem {c : Char} (h : breaksHead c = true) :
    c ∈ [';', '{', '}', '(', ')', '=', '#', '"', '\n'] := by
  simp only [breaksHead, Bool.or_eq_true, beq_iff_eq] at h
  rcases h with (((((((h | h) | h) | h) | h) | h) | h) | h) | h <;> simp [h]

theorem regionStop_mem {c : Char} (h : (c == ';' || c == '{' || c == '}') = true) :
    c ∈ [';', '{', '}'] := by
  simp only [Bool.or_eq_true, beq_iff_eq] at h
  rcases h with (h | h) | h <;> simp [h]

/-- A declaration line whose head is spelling characters opening with a letter, `_` or `~`,
and whose parameters are quiet, is found whole. -/
theorem prototypeAt_callLine {H P : List Char} (hH : H.all isSpellingChar = true)
    (hx : (H.head?.map startsHead).getD false = true) (hP : P.all isQuietChar = true)
    (rest : List Char) :
    prototypeAt ((H ++ '(' :: P ++ [')', ';']) ++ '\n' :: rest) =
      some (H, P, (H ++ '(' :: P ++ [')', ';']).length) := by
  obtain ⟨x, X, rfl⟩ : ∃ x X, H = x :: X := by
    cases H with
    | nil => simp at hx
    | cons x X => exact ⟨x, X, rfl⟩
  have hX : ∀ c ∈ X, breaksHead c = false := fun c hc =>
    stop_false_of_class (fun _ => breaksHead_mem) (k := isSpellingChar) (by rfl)
      (List.all_eq_true.mp hH c (List.mem_cons_of_mem x hc))
  have hP' : ∀ c ∈ P, (c == ';' || c == '{' || c == '}') = false := fun c hc =>
    stop_false_of_class (fun _ => regionStop_mem) (k := isQuietChar) (by rfl)
      (List.all_eq_true.mp hP c hc)
  have h := prototypeAt_call ('\n' :: rest) (by simpa using hx) hX hP'
  simp only [List.append_assoc, List.cons_append, List.nil_append] at h ⊢
  rw [h]
  simp only [List.length_cons, List.length_append, List.length_nil, Option.some.injEq,
    Prod.mk.injEq, true_and]
  omega

theorem spelling_name_chars (t : ValueType) {n : String} (hn : IsName n) :
    (t.spelling.toList ++ ' ' :: n.toList).all isSpellingChar = true := by
  simp only [List.all_append, List.all_cons, spelling_chars, Bool.true_and]
  exact List.all_eq_true.mpr fun c hc => isSpellingChar_of_name hn hc

theorem startsHead_of_isIdentifier {cs : List Char} (h : isIdentifier cs = true) :
    (cs.head?.map startsHead).getD false = true := by
  cases cs with
  | nil => simp [isIdentifier] at h
  | cons c r =>
    simp only [isIdentifier, Bool.and_eq_true] at h
    simp [startsHead, h.1]

/-- The line of a free function or method is found whole, with its head and parameters. -/
theorem prototypeAt_protoText {ret : ValueType} {name : String} {ps : List Parameter}
    (hn : IsName name) (hps : ∀ p ∈ ps, ParamOk p) (rest : List Char) :
    prototypeAt (protoText ret name ps ++ '\n' :: rest) =
      some (ret.spelling.toList ++ ' ' :: name.toList, paramsText ps, (protoText ret name ps).length) := by
  have hx : ((ret.spelling.toList ++ ' ' :: name.toList).head?.map startsHead).getD false = true := by
    obtain ⟨s, S, hsp, hs⟩ := spelling_opens ret
    simp [hsp, startsHead, hs]
  rw [protoText_eq]
  exact prototypeAt_callLine (spelling_name_chars ret hn) hx (paramsText_quiet hps) rest

/-- The line of a constructor is found whole, with the class name as its head. -/
theorem prototypeAt_ctorText {cls : String} {ps : List Parameter} (hn : IsName cls)
    (hps : ∀ p ∈ ps, ParamOk p) (rest : List Char) :
    prototypeAt ((Member.ctor ps).text cls ++ '\n' :: rest) =
      some (cls.toList, paramsText ps, ((Member.ctor ps).text cls).length) :=
  prototypeAt_callLine (List.all_eq_true.mpr fun _ hc => isSpellingChar_of_name hn hc)
    (startsHead_of_isIdentifier hn.1) (paramsText_quiet hps) rest

/-! ## Members of a class section -/

theorem take_length_append (l rest : List Char) : (l ++ rest).take l.length = l :=
  List.take_left' rfl

/-- Each member line of a well-formed class is found whole, as the member's prototype. -/
theorem memberAt_memberLine {cls : String} (hcls : IsName cls) {m : Member}
    (hm : m.WellFormed cls) (hop : ∀ n ∈ m.declName cls, startsWith n.toList "operator" = false)
    {p : Prototype} (hp : m.prototype cls = some p) (prev : Option Char) (rest : List Char) :
    memberAt prev (m.text cls ++ '\n' :: rest) = some (some (.ok p), (m.text cls).length) := by
  cases m with
  | ctor ps =>
    have hsplit := splitHead_name hcls (hop cls rfl)
    simp only [Member.prototype, Option.some.injEq] at hp
    subst hp
    simp [memberAt, prototypeAt_ctorText hcls hm rest, classify, hsplit]
  | method ret name ps =>
    have hsplit := splitHead_typedName ret hm.1 (hop name rfl)
    simp only [Member.prototype, Option.some.injEq] at hp
    subst hp
    simp only [memberAt, Member.text, prototypeAt_protoText hm.1 hm.2.2 rest, Option.map_some,
      take_length_append, classify, hsplit]
    rfl
  | label a => simp [Member.prototype] at hp

theorem memberAt_newline (prev : Option Char) (rest : List Char) :
    memberAt prev ('\n' :: rest) = none := by
  simp [memberAt, prototypeAt, startsHead]

theorem Member.text_ne_nil {cls : String} {m : Member} (hm : m.isLabel = false) :
    m.text cls ≠ [] := by
  cases m with
  | ctor ps => simp [Member.text]
  | method ret name ps => simp [Member.text, protoText]
  | label a => simp [Member.isLabel] at hm

theorem Member.prototype_isSome (cls : String) {m : Member} (hm : m.isLabel = false) :
    ∃ p, m.prototype cls = some p := by
  cases m with
  | ctor ps => exact ⟨_, rfl⟩
  | method ret name ps => exact ⟨_, rfl⟩
  | label a => simp [Member.isLabel] at hm

/-- The member lines of a class section, after the newline that opens it, are read in
order, each as its member's prototype. -/
theorem membersFrom_memberLines {cls : String} (hcls : IsName cls) {ms : List Member}
    (hms : ∀ m ∈ ms, m.WellFormed cls ∧ m.isLabel = false ∧
      ∀ n ∈ m.declName cls, startsWith n.toList "operator" = false) :
    membersFrom ('\n' :: linesText (ms.map (Member.text cls))) =
      ms.filterMap fun m => (m.prototype cls).map .ok := by
  unfold membersFrom
  -- the scan passes each opening newline and takes each member line whole
  suffices h : ∀ (prev : Option Char) (pos : Nat),
      (occurrences memberAt prev pos ('\n' :: linesText (ms.map (Member.text cls)))).filterMap
        (·.1) = ms.filterMap fun m => (m.prototype cls).map .ok from h none 0
  induction ms with
  | nil =>
    intro prev pos
    rw [List.map_nil, linesText_nil, occurrences_cons_of_none (memberAt_newline prev [])]
    simp [occurrences]
  | cons m ms ih =>
    intro prev pos
    obtain ⟨hwf, hlabel, hop⟩ := hms m List.mem_cons_self
    obtain ⟨p, hp⟩ := Member.prototype_isSome cls hlabel
    rw [List.map_cons, linesText_cons, occurrences_cons_of_none (memberAt_newline prev _),
      occurrences_append_of_found (Member.text_ne_nil hlabel)
        (memberAt_memberLine hcls hwf hop hp _ _)]
    simp only [List.filterMap_cons, hp, Option.map_some]
    rw [ih (fun m' hm' => hms m' (List.mem_cons_of_mem m hm'))]

/-! ## Free functions at line starts -/

theorem afterNewline_append {l : List Char} (hl : '\n' ∉ l) (rest : List Char) :
    afterNewline (l ++ '\n' :: rest) = some rest := by
  induction l with
  | nil => rfl
  | cons c l ih =>
    have hc : c ≠ '\n' := fun h => hl (h ▸ List.mem_cons_self)
    rw [List.cons_append, afterNewline, if_neg hc]
    exact ih (fun h => hl (List.mem_cons_of_mem c h))

/-- A line in which no declaration starts after its indentation is passed over. -/
theorem lineMatches_skip {l : List Char} (hl : '\n' ∉ l) (rest : List Char)
    (hp : prototypeAt (spanClass (fun c => c == ' ' || c == '\t') (l ++ '\n' :: rest)).2 = none) :
    lineMatches (l ++ '\n' :: rest) = lineMatches rest := by
  rw [lineMatches]
  simp only [hp]
  split
  · next r h =>
    rw [afterNewline_append hl] at h
    cases h
    rfl
  · next h =>
    rw [afterNewline_append hl] at h
    cases h

theorem linesFrom_skip {l : List Char} (hl : '\n' ∉ l) (rest : List Char)
    (hp : prototypeAt (spanClass (fun c => c == ' ' || c == '\t') (l ++ '\n' :: rest)).2 = none) :
    linesFrom (l ++ '\n' :: rest) = linesFrom rest := by
  simp only [linesFrom, lineMatches_skip hl rest hp]

/-- A line that starts with a declaration found whole is matched whole. -/
theorem lineMatches_found {l : List Char} (rest : List Char)
    {head params : List Char}
    (hs : spanClass (fun c => c == ' ' || c == '\t') (l ++ '\n' :: rest) = ([], l ++ '\n' :: rest))
    (hp : prototypeAt (l ++ '\n' :: rest) = some (head, params, l.length)) :
    lineMatches (l ++ '\n' :: rest) = (head, params, l) :: lineMatches rest := by
  have hdrop : (l ++ '\n' :: rest).drop l.length = '\n' :: rest := List.drop_left
  rw [lineMatches]
  simp only [hs, hp, List.length_nil, Nat.zero_add, take_length_append]
  split
  · next r h =>
    simp only [hs, List.length_nil, Nat.zero_add, hdrop, afterNewline, if_true] at h
    cases h
    rfl
  · next h => simp [hs, hdrop, afterNewline] at h

/-- A line that starts with a declaration found whole is read as what the declaration
yields. -/
theorem linesFrom_found {l : List Char} (rest : List Char)
    {head params : List Char}
    (hs : spanClass (fun c => c == ' ' || c == '\t') (l ++ '\n' :: rest) = ([], l ++ '\n' :: rest))
    (hp : prototypeAt (l ++ '\n' :: rest) = some (head, params, l.length)) :
    linesFrom (l ++ '\n' :: rest) = (classify head params l).toList ++ linesFrom rest := by
  simp only [linesFrom, lineMatches_found rest hs hp, List.filterMap_cons]
  cases classify head params l <;> rfl

end Breadboard.Header
