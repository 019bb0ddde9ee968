import Breadboard.Proofs.Header.Parameters
import Breadboard.Proofs.Header.Keywords

/-!
# The lines of a written header

What each kind of line of a written header holds, and where the keyword scanners find
nothing in it. A declaration line `HEAD(PARAMS);` (a free function, a method or a
constructor) holds none of the characters the scanners stop at except its parentheses and
its final `;`, so a constant global never finds its `;` first, and neither a class head nor
a label finds its `{` or `:`. A `#define` line, a class head line, a label and `};` are
quiet for a constant global because a name is no keyword, a value holds no `const`, and the
fixed words clash with every keyword.

Main statements: `Block.quiet_const` (no line of a well-formed block declares a constant
global) and `Block.quiet_class` (no line but a class head opens a class).
-/

namespace Breadboard.Header

open Text

/-! ## Quiet characters -/

/-- A character that no scanner of a header stops at inside a declaration: no `;`, brace,
`:`, newline, parenthesis or quote. -/
def isQuietChar (c : Char) : Bool :=
  !([';', '{', '}', ':', '\n', '(', ')', '"', '\''].contains c)

theorem isQuietChar_of_spelling {c : Char} (hc : isSpellingChar c = true) :
    isQuietChar c = true := by
  simp only [isQuietChar, Bool.not_eq_true']
  exact contains_eq_false_of_class hc (by rfl)

theorem Parameter.text_quiet {p : Parameter} (hp : ParamOk p) : p.text.all isQuietChar = true := by
  rw [List.all_eq_true]
  intro c hc
  rw [Parameter.text_eq] at hc
  rcases List.mem_append.mp hc with hc | hc
  · exact isQuietChar_of_spelling (Parameter.declText_chars hp.1.1 c hc)
  · cases hdv : p.defaultValue with
    | none => simp [hdv] at hc
    | some d =>
      simp only [hdv, List.mem_cons] at hc
      have hd := hp.2 d hdv
      rcases hc with rfl | rfl | rfl | hc
      · rfl
      · rfl
      · rfl
      · -- a default holds no character of a statement, brace, parenthesis or quote
        have h1 := List.all_eq_true.mp hd.1.2.2.1 c hc
        have h2 := List.all_eq_true.mp hd.2.1 c hc
        simp at h1 h2
        simp [isQuietChar, h1.1, h1.2.1, h1.2.2.1, h1.2.2.2, h2.1, h2.2.1, h2.2.2.2.2.2.1,
          h2.2.2.2.2.2.2]

theorem paramsText_quiet {ps : List Parameter} (hps : ∀ p ∈ ps, ParamOk p) :
    (paramsText ps).all isQuietChar = true := by
  induction ps with
  | nil => rfl
  | cons p ps ih =>
    have hp := Parameter.text_quiet (hps p List.mem_cons_self)
    have hrest := ih fun q hq => hps q (List.mem_cons_of_mem p hq)
    cases ps with
    | nil => simpa [paramsText] using hp
    | cons q qs =>
      rw [paramsText_cons_cons]
      simp only [List.all_append, List.all_cons, hp, hrest]
      rfl

/-! ## Declaration lines -/

/-- The head of a declaration line `RET NAME(`: the return type's spelling and the name. -/
theorem protoText_eq (ret : ValueType) (name : String) (ps : List Parameter) :
    protoText ret name ps = (ret.spelling.toList ++ ' ' :: name.toList) ++
      '(' :: paramsText ps ++ [')', ';'] := by
  simp [protoText]

/-- A constant global finds its `;` only after the `)` of a declaration line. -/
theorem quiet_body_const {B : List Char} (hlast : B.getLast? = some ')') (hB : ';' ∉ B)
    (prev : Option Char) (rest : List Char) :
    Quiet constGlobalAt prev (B ++ [';', '\n']) rest := by
  refine Quiet.append (constScanner.quiet_of_stops (fun p s hps hs => ?_) prev)
    (constScanner.quiet_of_clashes (by rfl) _ rest)
  have hs' : s.getLast? = some ')' := by
    rw [← hlast, hps, List.getLast?_append, List.getLast?_eq_some_getLast hs, Option.some_or]
  obtain ⟨d, hd, -, hfind⟩ := find?_append_of_mem (List.mem_of_getLast? hs') (q := constStop)
    (by rfl) ([';', '\n'] ++ rest)
  rw [hfind]
  rintro ⟨⟩
  exact hB (by rw [hps]; exact List.mem_append_right _ hd)

/-- Inside a text with no stop of a scanner, the first stop after it is the one that
follows. -/
theorem find?_append_of_free {q : Char → Bool} {B s t : List Char}
    (hB : ∀ c ∈ B, q c = false) (hs : s <:+ B) : (s ++ t).find? q = t.find? q := by
  rw [List.find?_append, List.find?_eq_none.mpr, Option.none_or]
  intro c hc
  simp [hB c (hs.subset hc)]

/-- A class head finds its `;` before any `{` in a declaration line. -/
theorem quiet_body_class {B : List Char} (hB : ∀ c ∈ B, classStop c = false)
    (prev : Option Char) (rest : List Char) :
    Quiet classHeadAt prev (B ++ [';', '\n']) rest := by
  refine Quiet.append (classScanner.quiet_of_stops (fun p s hps _ => ?_) prev)
    (classScanner.quiet_of_clashes (by rfl) _ rest)
  rw [find?_append_of_free hB ⟨p, hps.symm⟩]
  simp [classStop]

/-- An access label finds its `;` before any `:` in a declaration line. -/
theorem quiet_body_label {B : List Char} (hB : ∀ c ∈ B, labelStop c = false)
    (prev : Option Char) (rest : List Char) :
    Quiet accessLabelAt prev (B ++ [';', '\n']) rest := by
  refine Quiet.append (labelScanner.quiet_of_stops (fun p s hps _ => ?_) prev)
    (labelScanner.quiet_of_clashes (by rfl) _ rest)
  rw [find?_append_of_free hB ⟨p, hps.symm⟩]
  simp [labelStop]

/-- The body of a declaration line, up to its `)`: a head of quiet characters, then the
parameter list in parentheses. -/
structure CallBody (B : List Char) : Prop where
  last : B.getLast? = some ')'
  quiet : ∀ c ∈ B, c = '(' ∨ c = ')' ∨ isQuietChar c = true

theorem callBody_of_quiet {X P : List Char} (hX : X.all isQuietChar = true)
    (hP : P.all isQuietChar = true) : CallBody (X ++ '(' :: P ++ [')']) where
  last := by
    rw [show X ++ '(' :: P ++ [')'] = (X ++ '(' :: P) ++ [')'] by simp, List.getLast?_concat]
  quiet := by
    intro c hc
    simp only [List.mem_append, List.mem_cons, List.not_mem_nil, or_false] at hc
    rcases hc with (hc | rfl | hc) | rfl
    · exact .inr (.inr (List.all_eq_true.mp hX c hc))
    · exact .inl rfl
    · exact .inr (.inr (List.all_eq_true.mp hP c hc))
    · exact .inr (.inl rfl)

theorem CallBody.semicolon_not_mem {B : List Char} (hB : CallBody B) : ';' ∉ B := by
  intro h
  rcases hB.quiet ';' h with h | h | h <;> simp_all [isQuietChar]

theorem CallBody.classStop {B : List Char} (hB : CallBody B) : ∀ c ∈ B, classStop c = false := by
  intro c hc
  rcases hB.quiet c hc with rfl | rfl | h
  · rfl
  · rfl
  · exact stop_false_of_class (fun _ => classStop_mem) (k := isQuietChar) (by rfl) h

theorem CallBody.labelStop {B : List Char} (hB : CallBody B) : ∀ c ∈ B, labelStop c = false := by
  intro c hc
  rcases hB.quiet c hc with rfl | rfl | h
  · rfl
  · rfl
  · exact stop_false_of_class (fun _ => labelStop_mem) (k := isQuietChar) (by rfl) h

theorem name_quiet {n : String} (hn : IsName n) : n.toList.all isQuietChar = true :=
  List.all_eq_true.mpr fun _ hc => isQuietChar_of_spelling (isSpellingChar_of_name hn hc)

/-- A free function's or method's line is a declaration line. -/
theorem protoText_callBody (ret : ValueType) {name : String} {ps : List Parameter}
    (hn : IsName name) (hps : ∀ p ∈ ps, ParamOk p) :
    ∃ B, CallBody B ∧ protoText ret name ps = B ++ [';'] := by
  have hX : (ret.spelling.toList ++ ' ' :: name.toList).all isQuietChar = true := by
    refine List.all_eq_true.mpr fun c hc => ?_
    rcases List.mem_append.mp hc with hc | hc
    · exact isQuietChar_of_spelling (mem_spelling hc)
    · rcases List.mem_cons.mp hc with rfl | hc
      · rfl
      · exact List.all_eq_true.mp (name_quiet hn) c hc
  exact ⟨_, callBody_of_quiet hX (paramsText_quiet hps), by simp [protoText]⟩

/-- A constructor's line is a declaration line. -/
theorem ctorText_callBody {cls : String} {ps : List Parameter} (hn : IsName cls)
    (hps : ∀ p ∈ ps, ParamOk p) :
    ∃ B, CallBody B ∧ (Member.ctor ps).text cls = B ++ [';'] :=
  ⟨_, callBody_of_quiet (name_quiet hn) (paramsText_quiet hps), by simp [Member.text]⟩

/-! ## The other lines -/

theorem identChars_of_alphanum {w : String} (h : w.toList.all Char.isAlphanum = true) :
    ∀ c ∈ w.toList, IsIdentChar c :=
  fun c hc => .inl (List.all_eq_true.mp h c hc)

theorem constWords : ∀ w ∈ ["const"], w ∈ cppKeywords ∧ ∀ c ∈ w.toList, IsIdentChar c := by
  intro w hw
  rw [List.mem_singleton.mp hw]
  exact ⟨by simp [cppKeywords], identChars_of_alphanum (by rfl)⟩

theorem classWords : ∀ w ∈ ["class"], w ∈ cppKeywords ∧ ∀ c ∈ w.toList, IsIdentChar c := by
  intro w hw
  rw [List.mem_singleton.mp hw]
  exact ⟨by simp [cppKeywords], identChars_of_alphanum (by rfl)⟩

theorem blank_not_identChar : ¬ IsIdentChar ' ' := by
  rintro (h | h) <;> simp_all

section Scanner

variable {α : Type} {find : Option Char → List Char → Option (α × Nat)} {words : List String}
  {stop : Char → Bool} {goal : Char}

/-- A keyword scanner whose keywords clash with the fixed words of a `#define` line and that
no value holds finds nothing in the line. -/
theorem KeywordScanner.quiet_define (hs : KeywordScanner find words stop goal)
    (hwords : ∀ w ∈ words, w ∈ cppKeywords ∧ ∀ c ∈ w.toList, IsIdentChar c)
    (hfix : ∀ a ∈ ["#define ".toList, [' '], ['\n']],
      a.tails.all (fun s => s.isEmpty || words.all fun w => clashes s w.toList) = true)
    (hnl : ∀ w ∈ words, '\n' ∉ w.toList) {name value : String} (hn : IsName name)
    (hv : ∀ w ∈ words, containsText value.toList w = false) (prev : Option Char)
    (rest : List Char) :
    Quiet find prev (("#define ".toList ++ name.toList ++ ' ' :: value.toList) ++ ['\n']) rest := by
  have hend : ∀ p, Quiet find p ['\n'] rest := fun p => hs.quiet_of_clashes (hfix _ (by simp)) p rest
  have hval : ∀ p, Quiet find p (value.toList ++ ['\n']) rest := fun p =>
    Quiet.append (hs.quiet_of_containsText hv hnl p rest) (hend _)
  have hgap : ∀ p, Quiet find p ([' '] ++ (value.toList ++ ['\n'])) rest := fun p =>
    Quiet.append (hs.quiet_of_clashes (hfix _ (by simp)) p _) (hval _)
  have hname : ∀ p, Quiet find p (name.toList ++ ([' '] ++ (value.toList ++ ['\n']))) rest :=
    fun p => Quiet.append (hs.quiet_name hwords hn blank_not_identChar p _) (hgap _)
  have h := Quiet.append (hs.quiet_of_clashes (a := "#define ".toList) (hfix _ (by simp)) prev _)
    (hname _)
  simpa using h

end Scanner

/-- A `#define NAME VALUE` line declares no constant global. -/
theorem quiet_define_const {name value : String} (hn : IsName name) (hv : IsValue value)
    (prev : Option Char) (rest : List Char) :
    Quiet constGlobalAt prev (("#define ".toList ++ name.toList ++ ' ' :: value.toList) ++ ['\n'])
      rest :=
  constScanner.quiet_define constWords (by decide) (by decide) hn (by simpa using hv.2.2.1) prev rest

/-- A `#define NAME VALUE` line opens no class. -/
theorem quiet_define_class {name value : String} (hn : IsName name) (hv : IsValue value)
    (prev : Option Char) (rest : List Char) :
    Quiet classHeadAt prev (("#define ".toList ++ name.toList ++ ' ' :: value.toList) ++ ['\n'])
      rest :=
  classScanner.quiet_define classWords (by decide) (by decide) hn (by simpa using hv.2.2.2) prev rest

/-- A class head line `class NAME {` declares no constant global. -/
theorem quiet_classHead_const {cls : String} (hn : IsName cls) (prev : Option Char)
    (rest : List Char) : Quiet constGlobalAt prev (classHeadText cls ++ ['\n']) rest := by
  have htail : ∀ p, Quiet constGlobalAt p ([' ', '{', '\n']) rest := fun p =>
    constScanner.quiet_of_clashes (by rfl) p rest
  have hname : ∀ p, Quiet constGlobalAt p (cls.toList ++ [' ', '{', '\n']) rest := fun p =>
    Quiet.append (constScanner.quiet_name constWords hn blank_not_identChar p _) (htail _)
  have h := Quiet.append (constScanner.quiet_of_clashes (a := "class ".toList) (by rfl) prev _)
    (hname _)
  simpa [classHeadText_eq] using h

/-- A label line declares no constant global and opens no class. -/
theorem quiet_label_const (a : Access) (cls : String) (prev : Option Char) (rest : List Char) :
    Quiet constGlobalAt prev ((Member.label a).text cls ++ ['\n']) rest := by
  cases a <;> exact constScanner.quiet_of_clashes (by rfl) prev rest

theorem quiet_label_class (a : Access) (cls : String) (prev : Option Char) (rest : List Char) :
    Quiet classHeadAt prev ((Member.label a).text cls ++ ['\n']) rest := by
  cases a <;> exact classScanner.quiet_of_clashes (by rfl) prev rest

/-! ## Blocks -/

/-- No member line of a class declares a constant global. -/
theorem Member.quiet_const {cls : String} (hcls : IsName cls) {m : Member} (hm : m.WellFormed cls)
    (prev : Option Char) (rest : List Char) :
    Quiet constGlobalAt prev (m.text cls ++ ['\n']) rest := by
  cases m with
  | ctor ps =>
    obtain ⟨B, hB, heq⟩ := ctorText_callBody hcls hm
    rw [heq, List.append_assoc]
    exact quiet_body_const hB.last hB.semicolon_not_mem prev rest
  | method ret name ps =>
    obtain ⟨B, hB, heq⟩ := protoText_callBody ret hm.1 hm.2.2
    rw [Member.text, heq, List.append_assoc]
    exact quiet_body_const hB.last hB.semicolon_not_mem prev rest
  | label a => exact quiet_label_const a cls prev rest

/-- No member line of a class opens a class. -/
theorem Member.quiet_class {cls : String} (hcls : IsName cls) {m : Member} (hm : m.WellFormed cls)
    (prev : Option Char) (rest : List Char) :
    Quiet classHeadAt prev (m.text cls ++ ['\n']) rest := by
  cases m with
  | ctor ps =>
    obtain ⟨B, hB, heq⟩ := ctorText_callBody hcls hm
    rw [heq, List.append_assoc]
    exact quiet_body_class hB.classStop prev rest
  | method ret name ps =>
    obtain ⟨B, hB, heq⟩ := protoText_callBody ret hm.1 hm.2.2
    rw [Member.text, heq, List.append_assoc]
    exact quiet_body_class hB.classStop prev rest
  | label a => exact quiet_label_class a cls prev rest

/-- The closing line `};` of a class declares no constant global and opens no class. -/
theorem quiet_close_const (prev : Option Char) (rest : List Char) :
    Quiet constGlobalAt prev (['}', ';'] ++ ['\n']) rest :=
  constScanner.quiet_of_clashes (by rfl) prev rest

theorem quiet_close_class (prev : Option Char) (rest : List Char) :
    Quiet classHeadAt prev (['}', ';'] ++ ['\n']) rest :=
  classScanner.quiet_of_clashes (by rfl) prev rest

/-- No line of a well-formed block declares a constant global. -/
theorem Block.quiet_const {b : Block} (hb : b.WellFormed) :
    ∀ l ∈ b.lines, ∀ prev rest, Quiet constGlobalAt prev (l ++ ['\n']) rest := by
  intro l hl prev rest
  cases b with
  | define name value =>
    simp only [Block.lines, List.mem_singleton] at hl
    subst hl
    exact quiet_define_const hb.1 hb.2.2.2 prev rest
  | function ret name ps =>
    simp only [Block.lines, List.mem_singleton] at hl
    subst hl
    obtain ⟨B, hB, heq⟩ := protoText_callBody ret hb.1 hb.2
    rw [heq, List.append_assoc]
    exact quiet_body_const hB.last hB.semicolon_not_mem prev rest
  | classDecl cls ms =>
    rcases Block.mem_lines_classDecl.mp hl with rfl | ⟨m, hm, rfl⟩ | rfl
    · exact quiet_classHead_const hb.1 prev rest
    · exact Member.quiet_const hb.1 (hb.2 m hm) prev rest
    · exact quiet_close_const prev rest

/-- A block other than a class opens no class. -/
theorem Block.quiet_class {b : Block} (hb : b.WellFormed) (hnc : ∀ cls ms, b ≠ .classDecl cls ms) :
    ∀ l ∈ b.lines, ∀ prev rest, Quiet classHeadAt prev (l ++ ['\n']) rest := by
  intro l hl prev rest
  cases b with
  | define name value =>
    simp only [Block.lines, List.mem_singleton] at hl
    subst hl
    exact quiet_define_class hb.1 hb.2.2.2 prev rest
  | function ret name ps =>
    simp only [Block.lines, List.mem_singleton] at hl
    subst hl
    obtain ⟨B, hB, heq⟩ := protoText_callBody ret hb.1 hb.2
    rw [heq, List.append_assoc]
    exact quiet_body_class hB.classStop prev rest
  | classDecl cls ms => exact absurd rfl (hnc cls ms)

/-! ## Lines of text -/

@[simp]
theorem linesText_nil : linesText [] = [] := rfl

@[simp]
theorem linesText_cons (l : List Char) (ls : List (List Char)) :
    linesText (l :: ls) = l ++ '\n' :: linesText ls := by
  simp [linesText]

theorem linesText_append (ls ls' : List (List Char)) :
    linesText (ls ++ ls') = linesText ls ++ linesText ls' := by
  simp [linesText]

/-- A scanner that finds nothing in any line finds nothing in lines of text. -/
theorem quiet_linesText {α : Type} {find : Option Char → List Char → Option (α × Nat)}
    {ls : List (List Char)} (h : ∀ l ∈ ls, ∀ prev rest, Quiet find prev (l ++ ['\n']) rest)
    (prev : Option Char) (rest : List Char) : Quiet find prev (linesText ls) rest := by
  induction ls generalizing prev with
  | nil => exact Quiet.nil prev rest
  | cons l ls ih =>
    have hl := h l List.mem_cons_self prev (linesText ls ++ rest)
    have hls := ih (fun l' hl' => h l' (List.mem_cons_of_mem l hl')) ((l ++ ['\n']).getLast?.or prev)
    have := Quiet.append hl hls
    simpa using this

end Breadboard.Header
