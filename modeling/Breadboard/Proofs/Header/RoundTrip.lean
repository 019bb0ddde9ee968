import Breadboard.Proofs.Header.Classes
/-!
# Reading a written header back

A header written from well-formed blocks (`headerText`) is read back (`read`) as the library
the blocks declare (`expected`), with the advisory findings about that library as its only
warnings. The condition beyond well-formedness is `Block.OperatorFree`: the reader skips any
declaration whose head has a word starting with `operator`, so a function or a public member
named `operatorX` is lost although its name is a plain identifier.

The reading goes stage by stage:

* the text holds no comment opener, so erasing comments keeps it;
* each `#define` line gives its constant and every other line is no macro;
* no line declares a constant global;
* the classes are read as in `readClasses_headerText`;
* blanking the classes' spans turns each class into lines of spaces and a last ` ;`, and the
  free-function reader then finds exactly the function lines.

Main statements: `read_headerText`, and `read_headerText_keeps`, which drops the condition
for free functions and says what is lost instead: the free functions whose names start with
`operator`, as `read_drops_operatorId` shows on `int operatorId(int x);`.
-/

namespace Breadboard.Header

open Text

/-! ## No comment in a written header -/

/-- A text with no comment opener: neither `//` nor `/*`. -/
def OpenerFree (cs : List Char) : Prop :=
  ¬ ['/', '/'] <:+: cs ∧ ¬ ['/', '*'] <:+: cs

/-- A two-character piece of a concatenation lies in one side or straddles the seam. -/
theorem pair_infix_append {x y : Char} {a b : List Char} (h : [x, y] <:+: a ++ b) :
    [x, y] <:+: a ∨ [x, y] <:+: b ∨ (a.getLast? = some x ∧ b.head? = some y) := by
  rcases List.infix_append_iff_ne_nil.mp h with h | h | ⟨l₁, l₂, h₁, h₂, hxy, ha, hb⟩
  · exact .inl h
  · exact .inr (.inl h)
  · right; right
    -- both sides are non-empty, so each holds one of the two characters
    obtain ⟨c, t, rfl⟩ := List.exists_cons_of_ne_nil h₁
    obtain ⟨d, u, rfl⟩ := List.exists_cons_of_ne_nil h₂
    have ht : t = [] := by
      have := congrArg List.length hxy
      simp only [List.length_cons, List.length_append, List.length_nil] at this
      exact List.eq_nil_of_length_eq_zero (by omega)
    subst ht
    simp only [List.cons_append, List.nil_append, List.cons.injEq] at hxy
    obtain ⟨rfl, rfl, rfl⟩ := hxy
    obtain ⟨s, rfl⟩ := ha
    obtain ⟨v, rfl⟩ := hb
    exact ⟨List.getLast?_concat .., rfl⟩

theorem OpenerFree.append {a b : List Char} (ha : OpenerFree a) (hb : OpenerFree b)
    (hseam : a.getLast? = some '/' → b.head? ≠ some '/' ∧ b.head? ≠ some '*') :
    OpenerFree (a ++ b) := by
  refine ⟨fun h => ?_, fun h => ?_⟩
  · rcases pair_infix_append h with h | h | ⟨hl, hh⟩
    · exact ha.1 h
    · exact hb.1 h
    · exact (hseam hl).1 hh
  · rcases pair_infix_append h with h | h | ⟨hl, hh⟩
    · exact ha.2 h
    · exact hb.2 h
    · exact (hseam hl).2 hh

/-- A text without `/` has no comment opener. -/
theorem openerFree_of_forall {cs : List Char} (h : ∀ c ∈ cs, c ≠ '/') : OpenerFree cs := by
  refine ⟨fun hi => h '/' (hi.subset (by simp)) rfl, fun hi => h '/' (hi.subset (by simp)) rfl⟩

/-- A joint after a character other than `/` opens no comment. -/
theorem OpenerFree.append_of_last {a b : List Char} (ha : OpenerFree a) (hb : OpenerFree b)
    (hl : a.getLast? ≠ some '/') : OpenerFree (a ++ b) :=
  ha.append hb fun h => absurd h hl

/-- A joint before a character other than `/` and `*` opens no comment. -/
theorem OpenerFree.append_of_head {a b : List Char} (ha : OpenerFree a) (hb : OpenerFree b)
    {c : Char} (hh : b.head? = some c) (hc : c ≠ '/' ∧ c ≠ '*') : OpenerFree (a ++ b) :=
  ha.append hb fun _ => by rw [hh]; exact ⟨by simp [hc.1], by simp [hc.2]⟩

/-- A plain value or default holds no comment opener. -/
theorem IsPlain.openerFree {s : String} (hs : IsPlain s) : OpenerFree s.toList :=
  ⟨fun h => by simpa [hs.2.2.2.1] using (containsText_eq_true_iff (s := "//")).mpr h,
    fun h => by simpa [hs.2.2.2.2] using (containsText_eq_true_iff (s := "/*")).mpr h⟩

theorem getLast?_ne_of_forall {a : List Char} {x : Char} (h : ∀ c ∈ a, c ≠ x) :
    a.getLast? ≠ some x :=
  fun hl => h x (List.mem_of_getLast? hl) rfl

theorem Parameter.text_openerFree {p : Parameter} (hp : ParamOk p) : OpenerFree p.text := by
  have hnot : ∀ c ∈ p.declText, c ≠ '/' := fun c hc =>
    ne_of_isSpellingChar (Parameter.declText_chars hp.1.1 c hc) rfl
  have hdecl : OpenerFree p.declText := openerFree_of_forall hnot
  rw [Parameter.text_eq]
  cases h : p.defaultValue with
  | none => simpa using hdecl
  | some d =>
    -- the default follows ` = `, so no comment opener straddles its start
    have hd : IsDefault d := hp.2 d h
    have heq : OpenerFree ([' ', '=', ' '] ++ d.toList) :=
      (openerFree_of_forall (by simp)).append_of_last hd.1.openerFree (by simp)
    exact hdecl.append_of_last heq (getLast?_ne_of_forall hnot)

theorem paramsText_openerFree {ps : List Parameter} (hps : ∀ p ∈ ps, ParamOk p) :
    OpenerFree (paramsText ps) := by
  induction ps with
  | nil => exact openerFree_of_forall (by simp [paramsText])
  | cons p ps ih =>
    have hp := Parameter.text_openerFree (hps p List.mem_cons_self)
    have ih' := ih fun q hq => hps q (List.mem_cons_of_mem p hq)
    cases ps with
    | nil => simpa [paramsText] using hp
    | cons q qs =>
      have hsep : OpenerFree ([',', ' '] ++ paramsText (q :: qs)) :=
        (openerFree_of_forall (by simp)).append_of_last ih' (by simp)
      rw [paramsText_cons_cons]
      exact hp.append_of_head hsep rfl (by decide)

/-- A declaration line `HEAD(PARAMS);` whose head has no `/` holds no comment opener. -/
theorem callLine_openerFree {X : List Char} (hX : ∀ c ∈ X, c ≠ '/') {ps : List Parameter}
    (hps : ∀ p ∈ ps, ParamOk p) : OpenerFree (X ++ '(' :: paramsText ps ++ [')', ';']) := by
  have hopen : OpenerFree (X ++ ['(']) :=
    openerFree_of_forall (List.forall_mem_append.mpr ⟨hX, by simp⟩)
  have hclose : OpenerFree (paramsText ps ++ [')', ';']) :=
    (paramsText_openerFree hps).append_of_head (openerFree_of_forall (by simp)) rfl (by decide)
  have h := hopen.append_of_last hclose (by simp)
  simpa using h

theorem name_not_slash {n : String} (hn : IsName n) : ∀ c ∈ n.toList, c ≠ '/' :=
  fun _ hc => ne_of_isSpellingChar (isSpellingChar_of_name hn hc) rfl

theorem protoText_openerFree (ret : ValueType) {name : String} (hn : IsName name)
    {ps : List Parameter} (hps : ∀ p ∈ ps, ParamOk p) : OpenerFree (protoText ret name ps) := by
  rw [protoText_eq]
  refine callLine_openerFree (List.forall_mem_append.mpr ⟨fun c hc => ?_, ?_⟩) hps
  · exact ne_of_isSpellingChar (mem_spelling hc) rfl
  · exact List.forall_mem_cons.mpr ⟨by decide, name_not_slash hn⟩

theorem Member.text_openerFree {cls : String} (hcls : IsName cls) {m : Member}
    (hm : m.WellFormed cls) : OpenerFree (m.text cls) := by
  cases m with
  | ctor ps => exact callLine_openerFree (name_not_slash hcls) hm
  | method ret name ps => exact protoText_openerFree ret hm.1 hm.2.2
  | label a => exact openerFree_of_forall (by cases a <;> simp [Member.text, Access.word])

theorem Block.lines_openerFree {b : Block} (hb : b.WellFormed) : ∀ l ∈ b.lines, OpenerFree l := by
  intro l hl
  cases b with
  | define name value =>
    simp only [Block.lines, List.mem_singleton] at hl
    subst hl
    have hnot : ∀ c ∈ "#define ".toList ++ name.toList ++ [' '], c ≠ '/' :=
      List.forall_mem_append.mpr
        ⟨List.forall_mem_append.mpr ⟨by simp, name_not_slash hb.1⟩, by simp⟩
    have h := (openerFree_of_forall hnot).append_of_last hb.2.2.2.1.openerFree
      (getLast?_ne_of_forall hnot)
    simpa using h
  | function ret name ps =>
    simp only [Block.lines, List.mem_singleton] at hl
    subst hl
    exact protoText_openerFree ret hb.1 hb.2
  | classDecl cls ms =>
    rcases Block.mem_lines_classDecl.mp hl with rfl | ⟨m, hm, rfl⟩ | rfl
    · exact openerFree_of_forall (List.forall_mem_append.mpr
        ⟨List.forall_mem_append.mpr ⟨by simp, name_not_slash hb.1⟩, by simp⟩)
    · exact Member.text_openerFree hb.1 (hb.2 m hm)
    · exact openerFree_of_forall (by simp)

/-- Lines without comment openers, each ended by a newline, hold none. -/
theorem linesText_openerFree {ls : List (List Char)} (h : ∀ l ∈ ls, OpenerFree l) :
    OpenerFree (linesText ls) := by
  induction ls with
  | nil => exact openerFree_of_forall (by simp)
  | cons l ls ih =>
    have hl : OpenerFree (l ++ ['\n']) :=
      (h l List.mem_cons_self).append_of_head (openerFree_of_forall (by simp)) rfl (by decide)
    have h' := hl.append_of_last (ih fun l' hl' => h l' (List.mem_cons_of_mem l hl')) (by simp)
    simpa using h'

/-- Erasing comments keeps a header written from well-formed blocks. -/
theorem eraseFrom_headerText {bs : List Block} (hbs : ∀ b ∈ bs, b.WellFormed) :
    eraseFrom .code (headerText bs) = headerText bs := by
  have h : OpenerFree (headerText bs) := linesText_openerFree fun l hl => by
    obtain ⟨b, hb, hl⟩ := List.mem_flatMap.mp hl
    exact Block.lines_openerFree (hbs b hb) l hl
  exact eraseFrom_eq_self .code _ (.inl rfl) h.1 h.2

/-! ## Macros -/

theorem linesText_eq_intercalate (ls : List (List Char)) :
    linesText ls = ['\n'].intercalate (ls ++ [[]]) := by
  induction ls with
  | nil => rfl
  | cons l ls ih =>
    rw [linesText_cons, ih, List.cons_append, List.intercalate_cons_of_ne_nil (by simp)]
    simp

/-- Lines without newlines, each ended by one, split at newlines into themselves and the
empty rest. -/
theorem splitOn_linesText {ls : List (List Char)} (h : ∀ l ∈ ls, '\n' ∉ l) :
    (linesText ls).splitOn '\n' = ls ++ [[]] := by
  rw [linesText_eq_intercalate]
  refine List.splitOn_intercalate '\n' (fun l hl => ?_) (by simp)
  rcases List.mem_append.mp hl with hl | hl
  · exact h l hl
  · rw [List.mem_singleton.mp hl]
    simp

theorem IsPlain.noNewline {s : String} (hs : IsPlain s) : '\n' ∉ s.toList := by
  intro h
  have := List.all_eq_true.mp hs.2.2.1 '\n' h
  simp at this

/-- No line of a well-formed block holds a newline. -/
theorem Block.lines_noNewline {b : Block} (hb : b.WellFormed) : ∀ l ∈ b.lines, '\n' ∉ l := by
  intro l hl
  cases b with
  | define name value =>
    simp only [Block.lines, List.mem_singleton] at hl
    subst hl
    have hname : '\n' ∉ name.toList := fun h =>
      ne_of_isSpellingChar (isSpellingChar_of_name hb.1 h) rfl rfl
    simp [hname, hb.2.2.2.1.noNewline]
  | function ret name ps =>
    simp only [Block.lines, List.mem_singleton] at hl
    subst hl
    obtain ⟨B, hB, heq⟩ := protoText_callBody ret hb.1 hb.2
    rw [heq]
    exact fun h => (hB.lineChars _ h).2.2 rfl
  | classDecl cls ms =>
    rcases Block.mem_lines_classDecl.mp hl with rfl | ⟨m, hm, rfl⟩ | rfl
    · have hname : '\n' ∉ cls.toList := fun h =>
        ne_of_isSpellingChar (isSpellingChar_of_name hb.1 h) rfl rfl
      simp [classHeadText_eq, hname]
    · cases hlabel : m.isLabel
      · exact fun h => (Member.text_lineChars hb.1 (hb.2 m hm) hlabel _ h).2.2 rfl
      · cases m with
        | label a => cases a <;> simp [Member.text, Access.word]
        | ctor ps => simp [Member.isLabel] at hlabel
        | method ret name ps => simp [Member.isLabel] at hlabel
    · simp

/-- A character that is no blank is neither a space nor a tab. -/
theorem isSpaceOrTab_eq_false {c : Char} (hb : isBlank c = false) : isSpaceOrTab c = false := by
  cases h : isSpaceOrTab c
  · rfl
  · simp only [isSpaceOrTab, Bool.or_eq_true, beq_iff_eq] at h
    rcases h with rfl | rfl <;> exact absurd hb (by decide)

/-- A line that starts with neither a blank nor `#` is no macro. -/
theorem macroOfLine_of_head {l : List Char} {c : Char} (hl : l.head? = some c) (hc : c ≠ '#')
    (hs : isSpaceOrTab c = false) : macroOfLine l = none := by
  obtain ⟨r, rfl⟩ : ∃ r, l = c :: r := by
    cases l with
    | nil => simp at hl
    | cons d r => exact ⟨r, by simp_all⟩
  have hmatch : defineMatch (c :: r) = none := by
    unfold defineMatch
    rw [List.dropWhile_cons_of_neg (by simp [hs])]
    split
    · next r' h => exact absurd (List.cons.inj h).1 hc
    · rfl
  simp [macroOfLine, hmatch]

/-- A `#define` line of a name and a value declares them. -/
theorem macroOfLine_define {name value : String} (hn : IsName name) (hv : IsValue value) :
    macroOfLine ("#define ".toList ++ name.toList ++ ' ' :: value.toList) =
      some (name.toList, value.toList) := by
  obtain ⟨c, r, hcr⟩ := List.exists_cons_of_ne_nil hn.ne_nil
  have hc : IsIdentChar c := hn.chars c (by simp [hcr])
  have hline : "#define ".toList ++ name.toList ++ ' ' :: value.toList =
      '#' :: ("define".toList ++ ' ' :: (name.toList ++ ' ' :: value.toList)) := by
    simp
  have hstart : ("define".toList ++ ' ' :: (name.toList ++ ' ' :: value.toList)).dropWhile
      isSpaceOrTab = "define".toList ++ ' ' :: (name.toList ++ ' ' :: value.toList) := by
    simp [isSpaceOrTab]
  have hdrop : ("define".toList ++ ' ' :: (name.toList ++ ' ' :: value.toList)).drop 6 =
      ' ' :: (name.toList ++ ' ' :: value.toList) := List.drop_left' rfl
  have hname : (' ' :: (name.toList ++ ' ' :: value.toList)).dropWhile isSpaceOrTab =
      name.toList ++ ' ' :: value.toList := by
    rw [List.dropWhile_cons_of_pos rfl, hcr, List.cons_append,
      List.dropWhile_cons_of_neg (by simp [isSpaceOrTab_eq_false hc.isBlank_eq_false])]
  have hspan : spanClass isWordChar (name.toList ++ ' ' :: value.toList) =
      (name.toList, ' ' :: value.toList) :=
    spanClass_append_cons (fun d hd => (hn.chars d hd).isWordChar) (by rfl)
  obtain ⟨hne, hhead, hlast⟩ := ends_of_trimmed hv.1.1 hv.1.2.1
  have htrim : trimChars (' ' :: value.toList) = value.toList := by
    simpa using @trimChars_margins [' '] _ [] (List.forall_mem_singleton.mpr rfl) (by simp) hne
      hhead hlast
  have hhash : ∀ R : List Char, ('#' :: R).dropWhile isSpaceOrTab = '#' :: R := fun _ =>
    List.dropWhile_cons_of_neg (by decide)
  rw [hline]
  simp only [macroOfLine, defineMatch, hhash, hstart,
    startsWith_append_self, if_true, hdrop, List.head?_cons, Option.map_some, Option.getD_some,
    hname, hspan]
  simp [hn.ne_nil, hne, isSpaceOrTab, htrim]

/-- The `#define` line of a well-formed constant declares it. -/
theorem defineOfLine_define {name value : String} (hb : (Block.define name value).WellFormed) :
    defineOfLine ("#define ".toList ++ name.toList ++ ' ' :: value.toList) =
      some (.ok ⟨name, value, TypeName.ofLiteral value⟩) := by
  have hguard : isIncludeGuard name.toList = false := by
    simp [isIncludeGuard, hb.2.1, hb.2.2.1]
  rw [defineOfLine, macroOfLine_define hb.1 hb.2.2.2]
  simp [hguard, hb.2.2.2.2.1]

/-- A line that starts with a character other than a blank and `#` is no macro. -/
theorem defineOfLine_of_head {l : List Char} {c : Char} (hl : l.head? = some c) (hc : c ≠ '#')
    (hb : isBlank c = false) : defineOfLine l = none := by
  simp [defineOfLine, macroOfLine_of_head hl hc (isSpaceOrTab_eq_false hb)]

theorem defineOfLine_of_ident {l : List Char} {c : Char} (hl : l.head? = some c)
    (hc : IsIdentChar c) : defineOfLine l = none :=
  defineOfLine_of_head hl (hc.ne (by decide) (by decide)) hc.isBlank_eq_false

/-- A line that starts with a name is no macro. -/
theorem defineOfLine_of_name {n : String} (hn : IsName n) (rest : List Char) :
    defineOfLine (n.toList ++ rest) = none := by
  obtain ⟨c, r, hcr⟩ := List.exists_cons_of_ne_nil hn.ne_nil
  exact defineOfLine_of_ident (by simp [hcr]) (hn.chars c (by simp [hcr]))

/-- A declaration line starts with its return type and is no macro. -/
theorem defineOfLine_protoText (ret : ValueType) (name : String) (ps : List Parameter) :
    defineOfLine (protoText ret name ps) = none := by
  obtain ⟨c, r, hs, hc⟩ := spelling_opens ret
  exact defineOfLine_of_ident (by simp [protoText, hs]) (.of_isAlpha hc)

/-- Only the `#define` line of a block is a macro, and it declares the block's constant. -/
theorem Block.filterMap_defineOfLine {b : Block} (hb : b.WellFormed) :
    b.lines.filterMap defineOfLine = b.constants.map .ok := by
  cases b with
  | define name value =>
    rw [Block.lines, List.filterMap_cons_some (defineOfLine_define hb), List.filterMap_nil]
    rfl
  | function ret name ps =>
    simp [Block.lines, Block.constants, defineOfLine_protoText]
  | classDecl cls ms =>
    have hnone : Block.constants (.classDecl cls ms) = [] := rfl
    rw [hnone, List.map_nil, List.filterMap_eq_nil_iff]
    intro l hl
    rcases Block.mem_lines_classDecl.mp hl with rfl | ⟨m, -, rfl⟩ | rfl
    · exact defineOfLine_of_head (c := 'c') (by simp [classHeadText_eq]) (by decide) (by decide)
    · cases m with
      | ctor ps =>
        simp only [Member.text, List.append_assoc]
        exact defineOfLine_of_name hb.1 _
      | method ret name ps => exact defineOfLine_protoText ret name ps
      | label a =>
        exact defineOfLine_of_head (c := a.word.toList.headD ' ') (by cases a <;> rfl)
          (by cases a <;> decide) (by cases a <;> decide)
    · exact defineOfLine_of_head rfl (by decide) (by decide)

/-- The constants of a header written from well-formed blocks are those of its `#define`
lines, and no macro is skipped. -/
theorem readDefines_headerText {bs : List Block} (hbs : ∀ b ∈ bs, b.WellFormed) :
    readDefines (headerText bs) = (bs.flatMap Block.constants, []) := by
  have hlines : ∀ l ∈ bs.flatMap Block.lines, '\n' ∉ l := fun l hl => by
    obtain ⟨b, hb, hl⟩ := List.mem_flatMap.mp hl
    exact Block.lines_noNewline (hbs b hb) l hl
  have hfound : ((headerText bs).splitOn '\n').filterMap defineOfLine =
      (bs.flatMap Block.constants).map .ok := by
    rw [headerText, splitOn_linesText hlines, List.filterMap_append, List.filterMap_flatMap,
      List.map_flatMap]
    have hnil : [([] : List Char)].filterMap defineOfLine = [] := rfl
    rw [hnil, List.append_nil]
    exact List.flatMap_congr fun b hb => Block.filterMap_defineOfLine (hbs b hb)
  simp [readDefines, hfound, List.filterMap_map]

/-! ## Constant globals -/

/-- No line of a header written from well-formed blocks declares a constant global. -/
theorem readConstGlobals_headerText {bs : List Block} (hbs : ∀ b ∈ bs, b.WellFormed) :
    readConstGlobals (headerText bs) = [] := by
  have hquiet : Quiet constGlobalAt none (headerText bs) [] := quiet_linesText (fun l hl => by
    obtain ⟨b, hb, hl⟩ := List.mem_flatMap.mp hl
    exact Block.quiet_const (hbs b hb) l hl) none []
  have h : occurrences constGlobalAt none 0 (headerText bs ++ []) =
      occurrences constGlobalAt ((headerText bs).getLast?.or none) (0 + (headerText bs).length) [] :=
    occurrences_append_of_quiet _ hquiet
  rw [List.append_nil] at h
  simp [readConstGlobals, h, occurrences]

/-! ## Blanking the classes -/

/-- A character blanked out: a newline stays, anything else turns into a space. -/
def blankChar (c : Char) : Char :=
  if c = '\n' then '\n' else ' '

/-- A line blanked out: a space for each of its characters. -/
def blankLine (l : List Char) : List Char :=
  List.replicate l.length ' '

/-- The lines of a block once the classes' spans are blanked out: every line of a class turns
into spaces, but for the `;` after its closing brace. -/
def Block.blankedLines : Block → List (List Char)
  | .classDecl cls ms =>
    (classHeadText cls :: ms.map (Member.text cls)).map blankLine ++ [[' ', ';']]
  | b => b.lines

theorem blankFrom_append (R : List (Nat × Nat)) (a b : List Char) (pos : Nat) :
    blankFrom (fun _ => 1) R pos (a ++ b) =
      blankFrom (fun _ => 1) R pos a ++ blankFrom (fun _ => 1) R (pos + a.length) b := by
  induction a generalizing pos with
  | nil => rfl
  | cons c a ih =>
    rw [List.cons_append, blankFrom, blankFrom, ih, List.cons_append, List.length_cons,
      Nat.add_assoc, Nat.add_comm 1]

/-- Text that no range reaches keeps its characters. -/
theorem blankFrom_of_miss {R : List (Nat × Nat)} {cs : List Char} {pos : Nat}
    (h : ∀ r ∈ R, r.2 ≤ pos ∨ pos + cs.length ≤ r.1) : blankFrom (fun _ => 1) R pos cs = cs := by
  induction cs generalizing pos with
  | nil => rfl
  | cons c cs ih =>
    have hany : R.any (fun r => decide (r.1 ≤ pos ∧ pos < r.2)) = false := by
      rw [List.any_eq_false]
      intro r hr
      have := h r hr
      simp only [List.length_cons] at this
      simp only [decide_eq_true_eq, not_and, Nat.not_lt]
      omega
    simp only [blankFrom, hany, Bool.false_eq_true, and_false, if_false]
    rw [ih fun r hr => by have := h r hr; simp only [List.length_cons] at this; omega]

/-- Text that one range covers is blanked out, newlines apart. -/
theorem blankFrom_of_hit {R : List (Nat × Nat)} {cs : List Char} {pos : Nat}
    (h : ∃ r ∈ R, r.1 ≤ pos ∧ pos + cs.length ≤ r.2) :
    blankFrom (fun _ => 1) R pos cs = cs.map blankChar := by
  induction cs generalizing pos with
  | nil => rfl
  | cons c cs ih =>
    obtain ⟨r, hr, h₁, h₂⟩ := h
    simp only [List.length_cons] at h₂
    have hany : R.any (fun r => decide (r.1 ≤ pos ∧ pos < r.2)) = true :=
      List.any_eq_true.mpr ⟨r, hr, by simp only [decide_eq_true_eq]; omega⟩
    simp only [blankFrom, hany, and_true]
    rw [ih ⟨r, hr, by omega, by omega⟩, List.map_cons]
    by_cases hc : c = '\n'
    · simp [hc, blankChar]
    · simp [hc, blankChar]

theorem map_blankChar_of_noNewline {l : List Char} (h : '\n' ∉ l) : l.map blankChar = blankLine l := by
  induction l with
  | nil => rfl
  | cons c l ih =>
    have hc : c ≠ '\n' := fun e => h (e ▸ List.mem_cons_self)
    rw [List.map_cons, ih fun e => h (List.mem_cons_of_mem c e), blankLine, blankLine,
      List.length_cons, List.replicate_succ, blankChar, if_neg hc]

theorem map_blankChar_linesText {ls : List (List Char)} (h : ∀ l ∈ ls, '\n' ∉ l) :
    (linesText ls).map blankChar = linesText (ls.map blankLine) := by
  induction ls with
  | nil => rfl
  | cons l ls ih =>
    rw [linesText_cons, List.map_append, List.map_cons, map_blankChar_of_noNewline
      (h l List.mem_cons_self), ih fun l' hl' => h l' (List.mem_cons_of_mem l hl'), List.map_cons,
      linesText_cons]
    rfl

/-- The spans of the classes after position `pos` start there or later. -/
theorem classSpans_ge : ∀ (pos : Nat) (bs : List Block), ∀ r ∈ classSpans pos bs, pos ≤ r.1
  | _, [] => by simp [classSpans]
  | pos, b :: bs => by
    intro r hr
    cases b with
    | classDecl cls ms =>
      rcases List.mem_cons.mp hr with rfl | hr
      · exact Nat.le_refl _
      · exact Nat.le_trans (Nat.le_add_right _ _) (classSpans_ge _ bs r hr)
    | define name value => exact Nat.le_trans (Nat.le_add_right _ _) (classSpans_ge _ bs r hr)
    | function ret name ps => exact Nat.le_trans (Nat.le_add_right _ _) (classSpans_ge _ bs r hr)

/-- A class's text blanked out from its head to its closing brace. -/
theorem blank_classText {cls : String} {ms : List Member}
    (hb : (Block.classDecl cls ms).WellFormed) :
    (classHeadText cls ++ sectionText cls ms ++ ['}']).map blankChar ++ [';', '\n'] =
      linesText (Block.classDecl cls ms).blankedLines := by
  have hhead : '\n' ∉ classHeadText cls :=
    Block.lines_noNewline hb _ (Block.mem_lines_classDecl.mpr (.inl rfl))
  have hmembers : ∀ l ∈ ms.map (Member.text cls), '\n' ∉ l := fun l hl =>
    Block.lines_noNewline hb l (Block.mem_lines_classDecl.mpr (.inr (.inl (List.mem_map.mp hl))))
  simp only [sectionText, List.map_append, List.map_cons, map_blankChar_of_noNewline hhead,
    map_blankChar_linesText hmembers, Block.blankedLines, linesText_append, linesText_cons,
    linesText_nil, List.map_nil, List.append_assoc, List.cons_append, List.nil_append]
  simp [blankChar]

theorem classSpans_cons (pos : Nat) (b : Block) (bs : List Block) :
    classSpans pos (b :: bs) =
      classSpans pos [b] ++ classSpans (pos + (linesText b.lines).length) bs := by
  cases b <;> simp [classSpans]

/-- The span of a block's own class ends within the block's text. -/
theorem classSpans_singleton_le {b : Block} {pos : Nat} :
    ∀ r ∈ classSpans pos [b], r.2 ≤ pos + (linesText b.lines).length := by
  intro r hr
  cases b with
  | classDecl cls ms =>
    simp only [classSpans, List.mem_singleton] at hr
    subst hr
    rw [linesText_classDecl]
    simp only [List.length_append, List.length_cons, List.length_nil]
    omega
  | define name value => simp [classSpans] at hr
  | function ret name ps => simp [classSpans] at hr

/-- Blanking a well-formed block's text, where the ranges hold its own class's span and
otherwise end before the block or start after it, gives its blanked lines. -/
theorem Block.blankFrom_lines {b : Block} (hb : b.WellFormed) {R : List (Nat × Nat)} {pos : Nat}
    (hown : ∀ r ∈ classSpans pos [b], r ∈ R)
    (hR : ∀ r ∈ R, r ∈ classSpans pos [b] ∨ r.2 ≤ pos ∨ pos + (linesText b.lines).length ≤ r.1) :
    blankFrom (fun _ => 1) R pos (linesText b.lines) = linesText b.blankedLines := by
  cases b with
  | classDecl cls ms =>
    -- the class's own span covers its text up to the closing brace, and nothing else
    have hsplit : linesText (Block.classDecl cls ms).lines =
        (classHeadText cls ++ sectionText cls ms ++ ['}']) ++ [';', '\n'] := by
      rw [linesText_classDecl]
      simp
    have hspan : classSpans pos [.classDecl cls ms] =
        [(pos, pos + ((classHeadText cls).length + (sectionText cls ms).length) + 1)] := rfl
    have hcover : pos + (classHeadText cls ++ sectionText cls ms ++ ['}']).length ≤
        pos + ((classHeadText cls).length + (sectionText cls ms).length) + 1 := by
      simp only [List.length_append, List.length_singleton]
      omega
    have hhit : blankFrom (fun _ => 1) R pos (classHeadText cls ++ sectionText cls ms ++ ['}']) =
        (classHeadText cls ++ sectionText cls ms ++ ['}']).map blankChar :=
      blankFrom_of_hit ⟨_, hown _ (by rw [hspan]; exact List.mem_singleton_self _), Nat.le_refl pos,
        hcover⟩
    rw [hsplit, blankFrom_append, hhit, blankFrom_of_miss, blank_classText hb]
    intro r hr
    rcases hR r hr with hr | hr | hr
    · rw [hspan, List.mem_singleton] at hr
      subst hr
      left
      simp only [List.length_append, List.length_singleton]
      omega
    · exact .inl (Nat.le_trans hr (Nat.le_add_right _ _))
    · right
      rw [hsplit] at hr
      simp only [List.length_append, List.length_cons, List.length_nil] at hr ⊢
      omega
  | define name value | function ret name ps =>
    refine blankFrom_of_miss fun r hr => ?_
    rcases hR r hr with hr | hr | hr
    · simp [classSpans] at hr
    · exact .inl hr
    · exact .inr hr

/-- Blanking the class spans of a written header, after ranges that end before it, blanks
out each class but for the `;` behind its closing brace. -/
theorem blankFrom_headerText : ∀ (bs : List Block), (∀ b ∈ bs, b.WellFormed) →
    ∀ (R : List (Nat × Nat)) (pos : Nat), (∀ r ∈ R, r.2 ≤ pos) →
      blankFrom (fun _ => 1) (R ++ classSpans pos bs) pos (headerText bs) =
        linesText (bs.flatMap Block.blankedLines)
  | [], _, _, _, _ => rfl
  | b :: bs, hbs, R, pos, hR => by
    have hlater := classSpans_ge (pos + (linesText b.lines).length) bs
    rw [headerText_cons, blankFrom_append, classSpans_cons, List.flatMap_cons, linesText_append]
    congr 1
    · -- the block's own text: its span, earlier ranges and later ones
      refine Block.blankFrom_lines (hbs b List.mem_cons_self) (fun r hr => by simp [hr])
        fun r hr => ?_
      rcases List.mem_append.mp hr with hr | hr
      · exact .inr (.inl (hR r hr))
      · rcases List.mem_append.mp hr with hr | hr
        · exact .inl hr
        · exact .inr (.inr (hlater r hr))
    · -- the rest of the header, after ranges that all end before it
      rw [← List.append_assoc]
      refine blankFrom_headerText bs (fun b' hb' => hbs b' (List.mem_cons_of_mem b hb')) _ _
        fun r hr => ?_
      rcases List.mem_append.mp hr with hr | hr
      · exact Nat.le_trans (hR r hr) (Nat.le_add_right _ _)
      · exact classSpans_singleton_le r hr

/-! ## The free functions -/

/-- The prototypes that the reader at line starts takes from the lines of a block once the
classes are blanked out: a free function's own, unless its name starts with `operator`. -/
def Block.freePrototypes : Block → List Prototype
  | .function ret name ps =>
    if startsWith name.toList "operator" then [] else [typedPrototype ret name ps]
  | _ => []

/-- Whether the reader keeps a declaration: its name does not start with `operator`. -/
def keepsName (f : FunctionDecl) : Bool :=
  !startsWith f.name.toList "operator"

theorem keepsName_free (name : String) (ret : ValueType) (ps : List Parameter) :
    keepsName (FunctionDecl.free name ret ps) = !startsWith name.toList "operator" := rfl

theorem linesFrom_nil : linesFrom [] = [] := by
  rw [linesFrom, lineMatches]
  simp [spanClass, prototypeAt, afterNewline]

/-- No prototype starts at a character that cannot open a head. -/
theorem prototypeAt_of_head {c : Char} (hc : startsHead c = false) (rest : List Char) :
    prototypeAt (c :: rest) = none := by
  simp [prototypeAt, hc]

/-- Spaces followed by a character that opens no head hold no prototype after the
indentation. -/
theorem prototypeAt_after_indent (ind : List Char) (hind : ∀ d ∈ ind, d = ' ') {c : Char}
    (hc : (c == ' ' || c == '\t') = false) (hs : startsHead c = false) (rest : List Char) :
    prototypeAt (spanClass (fun c => c == ' ' || c == '\t') (ind ++ c :: rest)).2 = none := by
  rw [spanClass_append_cons (fun d hd => by rw [hind d hd]; rfl) hc]
  exact prototypeAt_of_head hs rest

/-- Lines with no prototype after their indentation are passed over. -/
theorem linesFrom_linesText_skip {ls : List (List Char)}
    (h : ∀ l ∈ ls, '\n' ∉ l ∧ ∀ rest,
      prototypeAt (spanClass (fun c => c == ' ' || c == '\t') (l ++ '\n' :: rest)).2 = none)
    (rest : List Char) : linesFrom (linesText ls ++ rest) = linesFrom rest := by
  induction ls with
  | nil => rfl
  | cons l ls ih =>
    obtain ⟨hl, hp⟩ := h l List.mem_cons_self
    rw [linesText_cons, List.append_assoc, List.cons_append, linesFrom_skip hl _ (hp _)]
    exact ih fun l' hl' => h l' (List.mem_cons_of_mem l hl')

/-- A declaration line is not indented: it opens with its return type's spelling. -/
theorem spanClass_indent_protoText (ret : ValueType) (name : String) (ps : List Parameter)
    (rest : List Char) :
    spanClass (fun c => c == ' ' || c == '\t') (protoText ret name ps ++ '\n' :: rest) =
      ([], protoText ret name ps ++ '\n' :: rest) := by
  obtain ⟨s, S, hsp, hs⟩ := spelling_opens ret
  rw [protoText, hsp]
  exact @spanClass_append_cons _ [] _ _ (by simp)
    (isSpaceOrTab_eq_false (IsIdentChar.of_isAlpha hs).isBlank_eq_false)

/-- Once the classes are blanked out, the lines of a well-formed block are read at line starts
as its free prototypes. -/
theorem Block.linesFrom_blankedLines {b : Block} (hb : b.WellFormed) (rest : List Char) :
    linesFrom (linesText b.blankedLines ++ rest) = b.freePrototypes.map .ok ++ linesFrom rest := by
  cases b with
  | define name value =>
    -- the `#define` line opens with `#`, which starts no head
    refine linesFrom_linesText_skip (fun l hl => ⟨Block.lines_noNewline hb l hl, fun r => ?_⟩) rest
    simp only [Block.lines, List.mem_singleton] at hl
    subst hl
    exact prototypeAt_after_indent [] (by simp) rfl rfl _
  | function ret name ps =>
    have hfound := linesFrom_found rest (spanClass_indent_protoText ret name ps rest)
      (prototypeAt_protoText hb.1 hb.2 rest)
    simp only [Block.blankedLines, Block.lines, linesText_cons, linesText_nil, List.append_assoc,
      List.cons_append, List.nil_append]
    rw [hfound]
    -- the head is read as a declaration unless the name starts with `operator`
    cases hop : startsWith name.toList "operator"
    · simp [classify, splitHead_typedName ret hb.1 hop, Block.freePrototypes, hop, typedPrototype]
    · simp [classify, splitHead_typedName_operator ret hb.1 hop, Block.freePrototypes, hop]
  | classDecl cls ms =>
    -- every line of the class is blanked out to spaces, and its last one to ` ;`
    refine linesFrom_linesText_skip (fun l hl => ?_) rest
    simp only [Block.blankedLines, List.mem_append, List.mem_map, List.mem_singleton] at hl
    rcases hl with ⟨l', -, rfl⟩ | rfl
    · refine ⟨fun h => ?_, fun r => ?_⟩
      · rw [blankLine] at h
        exact absurd (List.eq_of_mem_replicate h) (by decide)
      · simpa using prototypeAt_after_indent (blankLine l')
          (fun d hd => List.eq_of_mem_replicate hd) rfl rfl r
    · refine ⟨by decide, fun r => ?_⟩
      simpa using prototypeAt_after_indent [' '] (c := ';') (by simp) rfl rfl ('\n' :: r)

/-- Once the classes of a header written from well-formed blocks are blanked out, the reader at
line starts finds exactly the blocks' free prototypes, in order. -/
theorem linesFrom_blankedLines {bs : List Block} (hbs : ∀ b ∈ bs, b.WellFormed) :
    linesFrom (linesText (bs.flatMap Block.blankedLines)) =
      (bs.flatMap Block.freePrototypes).map .ok := by
  induction bs with
  | nil => exact linesFrom_nil
  | cons b bs ih =>
    rw [List.flatMap_cons, linesText_append,
      Block.linesFrom_blankedLines (hbs b List.mem_cons_self),
      ih fun b' hb' => hbs b' (List.mem_cons_of_mem b hb'), List.flatMap_cons, List.map_append]

/-- One block's free prototypes, read by a reader that turns each into the block's function:
the function if the reader keeps it, and no warning. -/
theorem Block.freeReads {f : Prototype → List FunctionDecl × List Warning} {b : Block}
    (hf : ∀ p ∈ b.freePrototypes, f p = (b.functions, [])) :
    ((b.freePrototypes.map f).flatMap (·.1), (b.freePrototypes.map f).flatMap (·.2)) =
      (b.functions.filter keepsName, []) := by
  cases b with
  | function ret name ps =>
    cases hop : startsWith name.toList "operator"
    · have hfree : (Block.function ret name ps).freePrototypes = [typedPrototype ret name ps] := by
        simp only [Block.freePrototypes, hop, Bool.false_eq_true, if_false]
      rw [hfree] at hf ⊢
      rw [List.map_singleton, hf _ List.mem_cons_self]
      simp only [Block.functions, List.flatMap_cons, List.flatMap_nil, List.append_nil,
        List.filter_cons, keepsName_free, hop, Bool.not_false, if_true, List.filter_nil]
    · have hfree : (Block.function ret name ps).freePrototypes = [] := by
        simp only [Block.freePrototypes, hop, if_true]
      rw [hfree]
      simp only [Block.functions, List.map_nil, List.flatMap_nil, List.filter_cons, keepsName_free,
        hop, Bool.not_true, Bool.false_eq_true, if_false, List.filter_nil]
  | define name value => rfl
  | classDecl cls ms => rfl

/-- Reading each free prototype with a reader that turns it into its block's function gives
the blocks' functions that the reader keeps, and no warning. -/
theorem flatMap_freeReads {f : Prototype → List FunctionDecl × List Warning} {bs : List Block}
    (hf : ∀ b ∈ bs, ∀ p ∈ b.freePrototypes, f p = (b.functions, [])) :
    (((bs.flatMap Block.freePrototypes).map f).flatMap (·.1),
      ((bs.flatMap Block.freePrototypes).map f).flatMap (·.2)) =
      ((bs.flatMap Block.functions).filter keepsName, []) := by
  induction bs with
  | nil => rfl
  | cons b bs ih =>
    have ih' := ih fun b' hb' => hf b' (List.mem_cons_of_mem b hb')
    have hb := Block.freeReads (hf b List.mem_cons_self)
    simp only [Prod.mk.injEq] at ih' hb ⊢
    simp only [List.flatMap_cons, List.map_append, List.flatMap_append, List.filter_append, hb.1,
      hb.2, ih'.1, ih'.2, List.append_nil, and_self]

/-- The free functions of a header written from well-formed blocks, once its classes are
blanked out: those the blocks declare, less those whose names start with `operator`, and no
warning. -/
theorem readFunctions_blankedLines {bs : List Block} (hbs : ∀ b ∈ bs, b.WellFormed) :
    readFunctions (linesText (bs.flatMap Block.blankedLines)) =
      ((bs.flatMap Block.functions).filter keepsName, []) := by
  have hfound : scanPrototypes true (linesText (bs.flatMap Block.blankedLines)) =
      (bs.flatMap Block.freePrototypes).map .ok := by
    rw [scanPrototypes, if_pos rfl, linesFrom_blankedLines hbs]
  simp only [readFunctions, hfound, malformedOf_map_ok, prototypesOf_map_ok, List.map_nil,
    List.nil_append]
  refine flatMap_freeReads fun b hb p hp => ?_
  cases b with
  | function ret name ps =>
    have hp' : p = typedPrototype ret name ps := by
      simp only [Block.freePrototypes] at hp
      split at hp
      · simp at hp
      · exact List.mem_singleton.mp hp
    subst hp'
    simp [typedPrototype, readParameters_paramsText (hbs _ hb).2, spelling_isEmpty,
      resolveDeclared_spelling, Block.functions]
  | define name value => simp [Block.freePrototypes] at hp
  | classDecl cls ms => simp [Block.freePrototypes] at hp

/-! ## The whole reading -/

/-- A header written from well-formed blocks, whose classes declare no public name starting
with `operator`, is read as the library the blocks declare less the free functions whose names
start with `operator`; the only warnings are the advisory findings about that library. -/
theorem read_headerText_keeps {bs : List Block} (hbs : ∀ b ∈ bs, b.WellFormed)
    (hops : ∀ cls ms, Block.classDecl cls ms ∈ bs → (Block.classDecl cls ms).OperatorFree)
    (sourceId : String) :
    read (String.ofList (headerText bs)) sourceId =
      { library := { expected bs sourceId with
                     functions := (bs.flatMap Block.functions).filter keepsName },
        warnings := { expected bs sourceId with
                      functions := (bs.flatMap Block.functions).filter keepsName }.issues.map
                        .advisory } := by
  have hclean : eraseFrom .code (String.ofList (headerText bs)).toList = headerText bs := by
    rw [String.toList_ofList, eraseFrom_headerText hbs]
  have hblank : blankFrom (fun _ => 1) (classSpans 0 bs) 0 (headerText bs) =
      linesText (bs.flatMap Block.blankedLines) :=
    blankFrom_headerText bs hbs [] 0 (by simp)
  simp only [read, hclean, readDefines_headerText hbs, readClasses_headerText hbs hops, hblank,
    readFunctions_blankedLines hbs, readConstGlobals_headerText hbs, List.append_nil,
    List.nil_append, expected]

/-- The reader keeps every free function of operator-free blocks. -/
theorem filter_keepsName_functions {bs : List Block} (hops : ∀ b ∈ bs, b.OperatorFree) :
    (bs.flatMap Block.functions).filter keepsName = bs.flatMap Block.functions := by
  refine List.filter_eq_self.mpr fun f hf => ?_
  obtain ⟨b, hb, hf⟩ := List.mem_flatMap.mp hf
  cases b with
  | function ret name ps =>
    simp only [Block.functions, List.mem_singleton] at hf
    subst hf
    have hop : startsWith name.toList "operator" = false := hops _ hb
    rw [keepsName_free, hop, Bool.not_false]
  | define name value => simp [Block.functions] at hf
  | classDecl cls ms => simp [Block.functions] at hf

/-- **Reading a written header gives back its declarations.** Write a header from blocks, each
on lines of its own and in any order: a constant as `#define NAME VALUE`, a free function as
`RET NAME(PARAMS);`, a class as `class NAME {`, its member lines (constructors, methods and
access labels) and `};`. When the blocks are well formed and no name the reader takes as a
declaration starts with `operator`, the header is read as the library the blocks declare: the
constants, the free functions, and each class with its public members; the only warnings are
the advisory findings about that library. -/
theorem read_headerText {bs : List Block} (hbs : ∀ b ∈ bs, b.WellFormed)
    (hops : ∀ b ∈ bs, b.OperatorFree) (sourceId : String) :
    read (String.ofList (headerText bs)) sourceId =
      { library := expected bs sourceId,
        warnings := (expected bs sourceId).issues.map .advisory } := by
  rw [read_headerText_keeps hbs (fun cls ms h => hops _ h) sourceId,
    filter_keepsName_functions hops]
  rfl

/-- A servo header: a constant, a class with a public constructor, a public method with a
default and a private helper, and a free function. -/
def servoBlocks : List Block :=
  [.define "MAX_ANGLE" "180",
    .classDecl "Servo"
      [.label .pub, .ctor [{ name := "pin", type := .uint8 }],
        .method .void "write" [{ name := "angle", type := .int, defaultValue := some "90" }],
        .label .priv, .method .int "readRaw" []],
    .function .bool "attached" [{ name := "pin", type := .uint8 }]]

theorem servoBlocks_wellFormed : ∀ b ∈ servoBlocks, b.WellFormed := by
  decide +kernel

theorem servoBlocks_operatorFree : ∀ b ∈ servoBlocks, b.OperatorFree := by
  decide

theorem read_headerText_servo :
    (∀ b ∈ servoBlocks, b.WellFormed) ∧ (∀ b ∈ servoBlocks, b.OperatorFree) ∧
      read (String.ofList (headerText servoBlocks)) "Servo.h" =
        { library := expected servoBlocks "Servo.h",
          warnings := (expected servoBlocks "Servo.h").issues.map .advisory } :=
  ⟨servoBlocks_wellFormed, servoBlocks_operatorFree,
    read_headerText servoBlocks_wellFormed servoBlocks_operatorFree "Servo.h"⟩

-- the servo class is read with its public members only: the private `readRaw` is not listed
example : (expected servoBlocks "Servo.h").classes.map
    (fun c => (c.name, c.methods.map (·.name), c.constructors.length)) =
      [("Servo", ["write"], 1)] := by
  decide

/-- A header of one free function whose name starts with `operator`. -/
def operatorIdBlocks : List Block :=
  [.function .int "operatorId" [{ name := "x", type := .int }]]

/-- The line `int operatorId(int x);` is a well-formed declaration, yet the reader takes its
name for an operator: the header is read with no function, though it declares one. -/
theorem read_drops_operatorId :
    (∀ b ∈ operatorIdBlocks, b.WellFormed) ∧
      (read (String.ofList (headerText operatorIdBlocks)) "Lib.h").library.functions = [] ∧
      (expected operatorIdBlocks "Lib.h").functions ≠ [] := by
  have hwf : ∀ b ∈ operatorIdBlocks, b.WellFormed := by decide
  -- the header has no class, so only the free-function reader is at stake
  have hread := read_headerText_keeps hwf (by simp [operatorIdBlocks]) "Lib.h"
  refine ⟨hwf, ?_, by decide⟩
  rw [hread]
  decide

end Breadboard.Header
