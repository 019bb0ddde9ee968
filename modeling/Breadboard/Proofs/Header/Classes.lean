import Breadboard.Proofs.Header.Prototypes
/-!
# Classes of a written header

The class reader on a header written from declarations. A class is written as its head line
`class CLS {`, its member lines and `};`; between the braces stands the class's section
text: a newline, then each member line with its newline. That text holds no brace and no
quote, so the brace scanner closes the class at the `}` of its last line, the
initializer-list cutter and the block flattener leave it as it is, and the sections the
reader cuts at access labels are the section texts of the members between the labels.

The main statement, `readClasses_headerText`, says that on a header of well-formed blocks,
whose classes declare no public name starting with `operator`, the class reader yields exactly
the classes the blocks declare, takes the text of each class from its head up to its closing
brace, and warns about nothing.
-/

namespace Breadboard.Header

open Text

/-! ## The brace structure of a class body -/

/-- A character the brace scanner passes over: no brace and no quote. -/
def isBodyChar (c : Char) : Bool :=
  !(c == '{' || c == '}' || c == '"' || c == '\'')

/-- The text between a class's braces: a newline, then each member line and its newline. -/
def sectionText (cls : String) (ms : List Member) : List Char :=
  '\n' :: linesText (ms.map (Member.text cls))

theorem closingFrom_plain {cs : List Char} (hcs : cs.all isBodyChar = true) (depth : Nat) :
    ∀ (offset : Nat) (rest : List Char),
      closingFrom (fun _ => 1) none depth offset (cs ++ rest) =
        closingFrom (fun _ => 1) none depth (offset + cs.length) rest := by
  induction cs with
  | nil => simp
  | cons c cs ih =>
    intro offset rest
    simp only [List.all_cons, Bool.and_eq_true] at hcs
    have hc : c ≠ '"' ∧ c ≠ '\'' ∧ c ≠ '{' ∧ c ≠ '}' := by
      have := hcs.1
      simp only [isBodyChar, Bool.not_eq_true', Bool.or_eq_false_iff, beq_eq_false_iff_ne] at this
      exact ⟨this.1.2, this.2, this.1.1.1, this.1.1.2⟩
    rw [List.cons_append, closingFrom, if_neg (by simp [hc.1, hc.2.1]), if_neg hc.2.2.1,
      if_neg hc.2.2.2, ih hcs.2]
    congr 1
    simp only [List.length_cons]
    omega

/-- A block whose inside holds no brace and no quote closes at the first `}`. -/
theorem closingIndex_block {body : List Char} (hbody : body.all isBodyChar = true)
    (rest : List Char) :
    closingIndex ('{' :: (body ++ '}' :: rest)) = some (body.length + 1) := by
  rw [closingIndex, closingFrom, if_neg (by decide), if_pos rfl,
    closingFrom_plain hbody, closingFrom, if_neg (by decide), if_neg (by decide), if_pos rfl,
    if_pos rfl]
  congr 1
  omega

theorem flattenFrom_plain {cs : List Char} (hcs : cs.all isBodyChar = true) :
    flattenFrom 0 cs = cs := by
  induction cs with
  | nil => rfl
  | cons c cs ih =>
    simp only [List.all_cons, Bool.and_eq_true] at hcs
    have hc : c ≠ '{' ∧ c ≠ '}' := by
      have := hcs.1
      simp only [isBodyChar, Bool.not_eq_true', Bool.or_eq_false_iff, beq_eq_false_iff_ne] at this
      exact ⟨this.1.1.1, this.1.1.2⟩
    rw [flattenFrom, if_neg hc.1, if_neg hc.2, if_pos rfl, ih hcs.2]

/-- The cutter passes a character other than a brace and `:` outside an initializer list. A
`)` may leave it right after a parameter list; another character that is no blank leaves it
elsewhere. -/
theorem cutFrom_cons_plain {st : CutState} {c : Char} (rest : List Char)
    (hi : st.inList = false) (hb : st.braces = 0) (hc : c ≠ '{' ∧ c ≠ '}') (hcolon : c ≠ ':') :
    ∃ st' : CutState, st'.inList = false ∧ st'.braces = 0 ∧
      (c ≠ ')' → isBlank c = false → st'.afterParams = false) ∧
      cutFrom st (c :: rest) = c :: cutFrom st' rest := by
  by_cases hopen : c = '('
  · subst hopen
    refine ⟨{ st with parens := st.parens + 1, afterParams := st.afterParams && isBlank '(' },
      hi, hb, fun _ h => by simp [h], ?_⟩
    simp [cutFrom, cutFrom.keep, hi, hb]
  by_cases hclose : c = ')'
  · subst hclose
    by_cases hp : st.parens - 1 = 0
    · exact ⟨{ st with parens := 0, afterParams := true }, hi, hb, fun h => absurd rfl h,
        by simp [cutFrom, hi, hb, hp]⟩
    · refine ⟨{ st with parens := st.parens - 1, afterParams := st.afterParams && isBlank ')' },
        hi, hb, fun h => absurd rfl h, ?_⟩
      simp [cutFrom, cutFrom.keep, hi, hb, hp]
  · refine ⟨{ st with afterParams := st.afterParams && isBlank c }, hi, hb,
      fun _ h => by simp [h], ?_⟩
    simp [cutFrom, cutFrom.keep, hi, hb, hc.1, hc.2, hopen, hclose, hcolon]

/-- The cutter passes a text without braces and `:` outside an initializer list. -/
theorem cutFrom_append_plain : ∀ (a : List Char) {st : CutState} (b : List Char),
    st.inList = false → st.braces = 0 → (∀ c ∈ a, (c ≠ '{' ∧ c ≠ '}') ∧ c ≠ ':') →
    ∃ st' : CutState, st'.inList = false ∧ st'.braces = 0 ∧
      (∀ c, a.getLast? = some c → c ≠ ')' → isBlank c = false → st'.afterParams = false) ∧
      cutFrom st (a ++ b) = a ++ cutFrom st' b
  | [], st, _, hi, hb, _ => ⟨st, hi, hb, by simp, rfl⟩
  | c :: a, st, b, hi, hb, h => by
    have hc := h c List.mem_cons_self
    obtain ⟨st₁, hi₁, hb₁, hp₁, heq₁⟩ := cutFrom_cons_plain (a ++ b) hi hb hc.1 hc.2
    cases a with
    | nil =>
      -- the character is the last one: its own step says what it leaves
      have hlast : ∀ d, [c].getLast? = some d → d ≠ ')' → isBlank d = false →
          st₁.afterParams = false := by
        intro d hd
        rw [List.getLast?_singleton, Option.some.injEq] at hd
        subst hd
        exact hp₁
      exact ⟨st₁, hi₁, hb₁, hlast, heq₁⟩
    | cons d a =>
      obtain ⟨st', hi', hb', hp', heq'⟩ :=
        cutFrom_append_plain (d :: a) b hi₁ hb₁ fun x hx => h x (List.mem_cons_of_mem c hx)
      refine ⟨st', hi', hb', fun x hx => hp' x (by rwa [List.getLast?_cons_cons] at hx), ?_⟩
      rw [List.cons_append, heq₁, heq']
      rfl

/-- A `:` that follows no parameter list is kept. -/
theorem cutFrom_colon {st : CutState} (rest : List Char) (hi : st.inList = false)
    (hb : st.braces = 0) (ha : st.afterParams = false) :
    ∃ st' : CutState, st'.inList = false ∧ st'.braces = 0 ∧
      cutFrom st (':' :: rest) = ':' :: cutFrom st' rest :=
  ⟨{ st with afterParams := st.afterParams && isBlank ':' }, hi, hb,
    by simp [cutFrom, cutFrom.keep, hi, hb, ha]⟩

/-! ## The head line -/

/-- The head line of a class opens it: the reader takes the class's name, closes the body at
the `}` that follows the section text, and goes on right behind the `{`. -/
theorem classHeadAt_classText {cls : String} (hcls : IsName cls) {body : List Char}
    (hbody : body.all isBodyChar = true) {prev : Option Char}
    (hprev : (prev.map isWordChar).getD false = false) (rest : List Char) :
    classHeadAt prev (classHeadText cls ++ (body ++ '}' :: rest)) =
      some ({ name := cls, close := some ((classHeadText cls).length + body.length), body },
        (classHeadText cls).length) := by
  obtain ⟨c, r, hcr⟩ := List.exists_cons_of_ne_nil hcls.ne_nil
  have hc : IsIdentChar c := hcls.chars c (by simp [hcr])
  have hcs : classHeadText cls ++ (body ++ '}' :: rest) =
      "class".toList ++ ' ' :: (cls.toList ++ ' ' :: '{' :: (body ++ '}' :: rest)) := by
    simp [classHeadText_eq]
  have hgap1 : spanClass isBlank (' ' :: (cls.toList ++ ' ' :: '{' :: (body ++ '}' :: rest))) =
      ([' '], cls.toList ++ ' ' :: '{' :: (body ++ '}' :: rest)) := by
    rw [hcr]
    exact @spanClass_append_cons isBlank [' '] _ _ (List.forall_mem_singleton.mpr rfl)
      hc.isBlank_eq_false
  have hname : spanClass isWordChar (cls.toList ++ ' ' :: '{' :: (body ++ '}' :: rest)) =
      (cls.toList, ' ' :: '{' :: (body ++ '}' :: rest)) :=
    spanClass_append_cons (fun d hd => (hcls.chars d hd).isWordChar) (by rfl)
  have hgap2 : spanClass isBlank (' ' :: '{' :: (body ++ '}' :: rest)) =
      ([' '], '{' :: (body ++ '}' :: rest)) :=
    @spanClass_append_cons isBlank [' '] _ _ (List.forall_mem_singleton.mpr rfl) (by rfl)
  have hbound : isWordBoundary prev (some 'c') = true := by
    have hw : isWordChar 'c' = true := by rfl
    cases prev with
    | none => rfl
    | some p => simp_all [isWordBoundary]
  have hblock : ("class".toList ++ ' ' :: (cls.toList ++ ' ' :: '{' :: (body ++ '}' :: rest))).drop
      (5 + 1 + cls.toList.length + 1) = '{' :: (body ++ '}' :: rest) := by
    rw [show "class".toList ++ ' ' :: (cls.toList ++ ' ' :: '{' :: (body ++ '}' :: rest)) =
      ("class".toList ++ ' ' :: cls.toList ++ [' ']) ++ '{' :: (body ++ '}' :: rest) by simp]
    exact List.drop_left' (by simp; omega)
  have hhead : ("class".toList ++ ' ' :: (cls.toList ++ ' ' :: '{' :: (body ++ '}' :: rest))).head? =
      some 'c' := rfl
  have hdrop : ("class".toList ++ ' ' :: (cls.toList ++ ' ' :: '{' :: (body ++ '}' :: rest))).drop 5 =
      ' ' :: (cls.toList ++ ' ' :: '{' :: (body ++ '}' :: rest)) := List.drop_left' rfl
  rw [hcs]
  simp only [classHeadAt, hhead, hbound, startsWith_append_self, hdrop, hgap1, hname, hgap2]
  split
  · next r' h => cases h
  simp only [List.length_singleton, Nat.add_zero, Nat.add_sub_cancel, hblock,
    closingIndex_block hbody, List.drop_one, List.tail_cons, List.take_left' rfl]
  simp [guard, hcls.ne_nil, classHeadText_eq]
  omega

/-! ## The characters of a class body -/

/-- A character of a declaration line that the brace scanner, the cutter and the line reader
pass over. -/
def isLineChar (c : Char) : Prop :=
  isBodyChar c = true ∧ c ≠ ':' ∧ c ≠ '\n'

theorem CallBody.lineChars {B : List Char} (hB : CallBody B) : ∀ c ∈ B ++ [';'], isLineChar c := by
  intro c hc
  rcases List.mem_append.mp hc with hc | hc
  · rcases hB.quiet c hc with rfl | rfl | h
    · exact ⟨rfl, by decide, by decide⟩
    · exact ⟨rfl, by decide, by decide⟩
    · simp only [isQuietChar, List.contains_cons, List.contains_nil, Bool.or_false,
        Bool.not_eq_true', Bool.or_eq_false_iff, beq_eq_false_iff_ne] at h
      simp [isLineChar, isBodyChar, h]
  · rw [List.mem_singleton.mp hc]
    exact ⟨rfl, by decide, by decide⟩

/-- The line of a well-formed constructor or method holds no brace, quote, `:` or newline. -/
theorem Member.text_lineChars {cls : String} (hcls : IsName cls) {m : Member}
    (hm : m.WellFormed cls) (hlabel : m.isLabel = false) : ∀ c ∈ m.text cls, isLineChar c := by
  cases m with
  | ctor ps =>
    obtain ⟨B, hB, heq⟩ := ctorText_callBody hcls hm
    rw [heq]
    exact hB.lineChars
  | method ret name ps =>
    obtain ⟨B, hB, heq⟩ := protoText_callBody ret hm.1 hm.2.2
    rw [Member.text, heq]
    exact hB.lineChars
  | label a => simp [Member.isLabel] at hlabel

/-- An access word is made of letters. -/
theorem Access.word_chars (a : Access) :
    (∀ c ∈ a.word.toList, (c ≠ '{' ∧ c ≠ '}') ∧ c ≠ ':') ∧
      ∃ x, a.word.toList.getLast? = some x ∧ x ≠ ')' ∧ isBlank x = false ∧ isBodyChar x = true := by
  cases a <;> refine ⟨by simp [Access.word], ?_⟩
  · exact ⟨'c', rfl, by decide, rfl, rfl⟩
  · exact ⟨'e', rfl, by decide, rfl, rfl⟩
  · exact ⟨'d', rfl, by decide, rfl, rfl⟩

theorem Access.word_bodyChars (a : Access) : a.word.toList.all isBodyChar = true := by
  cases a <;> rfl

/-- Every character of the section text of well-formed members is one the brace scanner
passes over. -/
theorem sectionText_bodyChars {cls : String} (hcls : IsName cls) {ms : List Member}
    (hms : ∀ m ∈ ms, m.WellFormed cls) : (sectionText cls ms).all isBodyChar = true := by
  suffices h : (linesText (ms.map (Member.text cls))).all isBodyChar = true by
    rw [sectionText, List.all_cons, h]
    rfl
  induction ms with
  | nil => rfl
  | cons m ms ih =>
    have hrest := ih fun m' hm' => hms m' (List.mem_cons_of_mem m hm')
    simp only [List.map_cons, linesText_cons, List.all_append, List.all_cons, Bool.and_eq_true]
    refine ⟨?_, rfl, hrest⟩
    cases hlabel : m.isLabel
    · exact List.all_eq_true.mpr fun c hc =>
        (Member.text_lineChars hcls (hms m List.mem_cons_self) hlabel c hc).1
    · cases m with
      | label a => simp [Member.text, Access.word_bodyChars a]; rfl
      | ctor ps => simp [Member.isLabel] at hlabel
      | method ret name ps => simp [Member.isLabel] at hlabel

/-- The cutter passes the member lines of a class: a `:` stands only after an access word. -/
theorem cutFrom_memberLines {cls : String} (hcls : IsName cls) {ms : List Member}
    (hms : ∀ m ∈ ms, m.WellFormed cls) :
    ∀ {st : CutState}, st.inList = false → st.braces = 0 →
      cutFrom st (linesText (ms.map (Member.text cls))) = linesText (ms.map (Member.text cls)) := by
  induction ms with
  | nil => intro st _ _; simp [cutFrom]
  | cons m ms ih =>
    intro st hi hb
    have ih' : ∀ {st : CutState}, st.inList = false → st.braces = 0 →
        cutFrom st (linesText (ms.map (Member.text cls))) = linesText (ms.map (Member.text cls)) :=
      ih fun m' hm' => hms m' (List.mem_cons_of_mem m hm')
    rw [List.map_cons, linesText_cons]
    cases hlabel : m.isLabel
    · -- a declaration line and its newline hold no `:`
      have hline : ∀ c ∈ m.text cls ++ ['\n'], (c ≠ '{' ∧ c ≠ '}') ∧ c ≠ ':' := by
        intro c hc
        rcases List.mem_append.mp hc with hc | hc
        · obtain ⟨hbody, hcolon, -⟩ := Member.text_lineChars hcls (hms m List.mem_cons_self) hlabel c hc
          simp only [isBodyChar, Bool.not_eq_true', Bool.or_eq_false_iff, beq_eq_false_iff_ne] at hbody
          exact ⟨hbody.1.1, hcolon⟩
        · rw [List.mem_singleton.mp hc]
          decide
      obtain ⟨st', hi', hb', -, heq⟩ := cutFrom_append_plain _ _ hi hb hline
      rw [show m.text cls ++ '\n' :: linesText (ms.map (Member.text cls)) =
        (m.text cls ++ ['\n']) ++ linesText (ms.map (Member.text cls)) by simp, heq, ih' hi' hb']
    · cases m with
      | label a =>
        -- the access word leaves the cutter off a parameter list, so its `:` is kept
        obtain ⟨hword, x, hx, hxc, hxb, -⟩ := Access.word_chars a
        obtain ⟨st₁, hi₁, hb₁, hp₁, heq₁⟩ := cutFrom_append_plain _
          (':' :: '\n' :: linesText (ms.map (Member.text cls))) hi hb hword
        obtain ⟨st₂, hi₂, hb₂, heq₂⟩ := cutFrom_colon ('\n' :: linesText (ms.map (Member.text cls)))
          hi₁ hb₁ (hp₁ x hx hxc hxb)
        obtain ⟨st₃, hi₃, hb₃, -, heq₃⟩ := @cutFrom_cons_plain st₂ '\n'
          (linesText (ms.map (Member.text cls))) hi₂ hb₂ (by decide) (by decide)
        simp only [Member.text, List.append_assoc, List.singleton_append]
        rw [heq₁, heq₂, heq₃, ih' hi₃ hb₃]
      | ctor ps => simp [Member.isLabel] at hlabel
      | method ret name ps => simp [Member.isLabel] at hlabel

/-- A class body of well-formed members passes the cutter and the flattener unchanged. -/
theorem flattenFrom_cutFrom_sectionText {cls : String} (hcls : IsName cls) {ms : List Member}
    (hms : ∀ m ∈ ms, m.WellFormed cls) :
    flattenFrom 0 (cutFrom {} (sectionText cls ms)) = sectionText cls ms := by
  obtain ⟨st, hi, hb, -, heq⟩ := @cutFrom_cons_plain {} '\n'
    (linesText (ms.map (Member.text cls))) rfl rfl (by decide) (by decide)
  rw [sectionText, heq, cutFrom_memberLines hcls hms hi hb]
  exact flattenFrom_plain (sectionText_bodyChars hcls hms)

/-! ## Access sections -/

/-- A class's members cut at its access labels: the members before the first label, and each
label with the members after it up to the next label. -/
def labelGroups : List Member → List Member × List (Access × List Member)
  | [] => ([], [])
  | .label a :: ms => ([], (a, (labelGroups ms).1) :: (labelGroups ms).2)
  | m :: ms => (m :: (labelGroups ms).1, (labelGroups ms).2)

/-- The text of labelled groups: each label line, then the section text of its members. -/
def groupsText (cls : String) (gs : List (Access × List Member)) : List Char :=
  gs.flatMap fun g => (Member.label g.1).text cls ++ sectionText cls g.2

/-- Where the labels of labelled groups stand when the groups' text starts at `pos`: whether
each is `public:`, its position, and its length. -/
def labelsAt (cls : String) : Nat → List (Access × List Member) → List (String × Nat × Nat)
  | _, [] => []
  | pos, (a, g) :: gs =>
    (a.word, pos, ((Member.label a).text cls).length) ::
      labelsAt cls (pos + ((Member.label a).text cls).length + (sectionText cls g).length) gs

theorem labelGroups_labelFree (ms : List Member) :
    (∀ m ∈ (labelGroups ms).1, m.isLabel = false) ∧
      ∀ g ∈ (labelGroups ms).2, ∀ m ∈ g.2, m.isLabel = false := by
  induction ms with
  | nil => simp [labelGroups]
  | cons m ms ih =>
    cases m with
    | label a =>
      simp only [labelGroups, List.not_mem_nil, false_imp_iff, implies_true, List.mem_cons,
        forall_eq_or_imp, true_and]
      exact ⟨ih.1, ih.2⟩
    | ctor ps =>
      simp only [labelGroups, List.mem_cons, forall_eq_or_imp]
      exact ⟨⟨rfl, ih.1⟩, ih.2⟩
    | method ret name ps =>
      simp only [labelGroups, List.mem_cons, forall_eq_or_imp]
      exact ⟨⟨rfl, ih.1⟩, ih.2⟩

/-- The members are the unlabelled ones, then each label with its group. -/
theorem labelGroups_spec (ms : List Member) :
    ms = (labelGroups ms).1 ++ (labelGroups ms).2.flatMap fun g => .label g.1 :: g.2 := by
  induction ms with
  | nil => rfl
  | cons m ms ih =>
    cases m with
    | label a =>
      simp only [labelGroups, List.nil_append, List.flatMap_cons, List.cons_append]
      rw [← ih]
    | ctor ps =>
      simp only [labelGroups, List.cons_append]
      rw [← ih]
    | method ret name ps =>
      simp only [labelGroups, List.cons_append]
      rw [← ih]

/-- The members under access `isPublic` are the unlabelled ones when that access is public,
then the groups under `public:`. -/
theorem membersUnder_labelGroups (isPublic : Bool) (ms : List Member) :
    membersUnder isPublic ms = (if isPublic then (labelGroups ms).1 else []) ++
      (labelGroups ms).2.flatMap fun g => if g.1 = .pub then g.2 else [] := by
  induction ms generalizing isPublic with
  | nil => cases isPublic <;> rfl
  | cons m ms ih =>
    cases m with
    | label a =>
      rw [membersUnder, ih]
      by_cases ha : a = .pub <;> simp [labelGroups, ha]
    | ctor ps => cases isPublic <;> simp [membersUnder, labelGroups, ih]
    | method ret name ps => cases isPublic <;> simp [membersUnder, labelGroups, ih]

theorem any_isLabel_labelGroups (ms : List Member) :
    ms.any Member.isLabel = !(labelGroups ms).2.isEmpty := by
  induction ms with
  | nil => rfl
  | cons m ms ih =>
    cases m with
    | label a => simp [labelGroups, Member.isLabel]
    | ctor ps => simp [labelGroups, Member.isLabel, ih]
    | method ret name ps => simp [labelGroups, Member.isLabel, ih]

/-- A class body is the section text of the unlabelled members, then the labelled groups. -/
theorem sectionText_labelGroups (cls : String) (ms : List Member) :
    sectionText cls ms =
      sectionText cls (labelGroups ms).1 ++ groupsText cls (labelGroups ms).2 := by
  have hgroups : ∀ gs : List (Access × List Member),
      linesText ((gs.flatMap fun g => Member.label g.1 :: g.2).map (Member.text cls)) =
        groupsText cls gs := by
    intro gs
    induction gs with
    | nil => rfl
    | cons g gs ih =>
      simp only [List.flatMap_cons, List.map_append, linesText_append, ih, groupsText,
        List.map_cons, linesText_cons, sectionText, List.append_assoc]
  conv_lhs => rw [labelGroups_spec ms]
  rw [sectionText, List.map_append, linesText_append, hgroups, sectionText, List.cons_append]

/-! ## Finding the labels -/

/-- No declaration line of a class is an access label. -/
theorem Member.quiet_label {cls : String} (hcls : IsName cls) {m : Member}
    (hm : m.WellFormed cls) (hlabel : m.isLabel = false) (prev : Option Char)
    (rest : List Char) : Quiet accessLabelAt prev (m.text cls ++ ['\n']) rest := by
  cases m with
  | ctor ps =>
    obtain ⟨B, hB, heq⟩ := ctorText_callBody hcls hm
    rw [heq, List.append_assoc]
    exact quiet_body_label hB.labelStop prev rest
  | method ret name ps =>
    obtain ⟨B, hB, heq⟩ := protoText_callBody ret hm.1 hm.2.2
    rw [Member.text, heq, List.append_assoc]
    exact quiet_body_label hB.labelStop prev rest
  | label a => simp [Member.isLabel] at hlabel

theorem accessLabelAt_newline (prev : Option Char) (rest : List Char) :
    accessLabelAt prev ('\n' :: rest) = none := by
  simp [accessLabelAt, startsWith, guard]

theorem sectionText_getLast? (cls : String) (ms : List Member) :
    (sectionText cls ms).getLast? = some '\n' := by
  unfold sectionText
  induction ms using List.reverseRecOn with
  | nil => rfl
  | append_singleton ms m _ =>
    rw [List.map_append, linesText_append, List.map_singleton, linesText_cons, linesText_nil,
      ← List.cons_append, ← List.append_assoc, List.getLast?_concat]

/-- The section text of declaration lines holds no access label. -/
theorem quiet_sectionText {cls : String} (hcls : IsName cls) {ms : List Member}
    (hms : ∀ m ∈ ms, m.WellFormed cls ∧ m.isLabel = false) (prev : Option Char)
    (rest : List Char) : Quiet accessLabelAt prev (sectionText cls ms) rest := by
  have hlines : ∀ l ∈ ms.map (Member.text cls), ∀ prev' rest',
      Quiet accessLabelAt prev' (l ++ ['\n']) rest' := by
    intro l hl prev' rest'
    obtain ⟨m, hm, rfl⟩ := List.mem_map.mp hl
    exact Member.quiet_label hcls (hms m hm).1 (hms m hm).2 prev' rest'
  exact Quiet.append (quiet_singleton (accessLabelAt_newline prev _)) (quiet_linesText hlines _ rest)

/-- A label line at a line start is found whole, with its word. -/
theorem accessLabelAt_label (a : Access) (cls : String) (rest : List Char) :
    accessLabelAt (some '\n') ((Member.label a).text cls ++ rest) =
      some (a.word, ((Member.label a).text cls).length) := by
  cases a <;> simp [accessLabelAt, Member.text, Access.word, startsWith, guard, spanClass,
    isWordBoundary] <;> rfl

/-- The labels of labelled groups are found where `labelsAt` puts them. -/
theorem occurrences_groupsText {cls : String} (hcls : IsName cls)
    {gs : List (Access × List Member)}
    (hgs : ∀ g ∈ gs, ∀ m ∈ g.2, m.WellFormed cls ∧ m.isLabel = false) (pos : Nat) :
    occurrences accessLabelAt (some '\n') pos (groupsText cls gs) = labelsAt cls pos gs := by
  induction gs generalizing pos with
  | nil => simp [groupsText, occurrences, labelsAt]
  | cons g gs ih =>
    obtain ⟨a, ms⟩ := g
    have hms := hgs (a, ms) List.mem_cons_self
    have hrest := ih (fun g hg => hgs g (List.mem_cons_of_mem _ hg))
    simp only [groupsText, List.flatMap_cons, List.append_assoc]
    rw [occurrences_append_of_found (by simp [Member.text]) (accessLabelAt_label a cls _),
      occurrences_append_of_quiet _ (quiet_sectionText hcls hms _ _), sectionText_getLast?,
      Option.some_or]
    exact congrArg _ (hrest _)

/-! ## Cutting the public sections -/

/-- Pairing each label with where the next one starts, or with the end of the text after the
last. -/
theorem zip_ends_cons {β : Type} (f : β → Nat) (x : β) (L : List β) (len : Nat) :
    (x :: L).zip (L.map f ++ [len]) =
      (x, (L.head?.map f).getD len) :: L.zip ((L.drop 1).map f ++ [len]) := by
  cases L with
  | nil => rfl
  | cons y L => rfl

/-- The label after a group starts where the group's text ends. -/
theorem labelsAt_head (cls : String) (pos : Nat) (gs : List (Access × List Member)) :
    ((labelsAt cls pos gs).head?.map (·.2.1)).getD (pos + (groupsText cls gs).length) = pos := by
  cases gs with
  | nil => simp [labelsAt, groupsText]
  | cons g gs => rfl

/-- What the reader cuts between labels found where `labelsAt` puts them, in a text that
ends with the labelled groups: the section texts of the groups under `public:`. -/
theorem filterMap_labelsAt {cls : String} {T : List Char}
    {F : (String × Nat × Nat) × Nat → Option (List Char)}
    (hF : ∀ w start n stop, F ((w, start, n), stop) =
      if w == "public" then some ((T.drop (start + n)).take (stop - (start + n))) else none) :
    ∀ (gs : List (Access × List Member)) (A : List Char), T = A ++ groupsText cls gs →
      ((labelsAt cls A.length gs).zip
          (((labelsAt cls A.length gs).drop 1).map (·.2.1) ++ [T.length])).filterMap F =
        (gs.filter fun g => decide (g.1 = .pub)).map fun g => sectionText cls g.2
  | [], _, _ => rfl
  | (a, ms) :: gs, A, hT => by
    -- the group's label, then its section, then the groups after it
    have hT' : T = (A ++ (Member.label a).text cls ++ sectionText cls ms) ++ groupsText cls gs := by
      rw [hT]
      simp [groupsText]
    have hlen : (A ++ (Member.label a).text cls ++ sectionText cls ms).length =
        A.length + ((Member.label a).text cls).length + (sectionText cls ms).length := by
      simp only [List.length_append]
    have hstop := labelsAt_head cls (A.length + ((Member.label a).text cls).length +
      (sectionText cls ms).length) gs
    rw [← hlen, ← List.length_append, ← hT'] at hstop
    have ih := filterMap_labelsAt hF gs _ hT'
    rw [hlen] at ih hstop
    have hsection : (T.drop (A.length + ((Member.label a).text cls).length)).take
        (sectionText cls ms).length = sectionText cls ms := by
      rw [hT', ← List.length_append, List.append_assoc (A ++ (Member.label a).text cls),
        List.drop_left, List.take_left]
    simp only [labelsAt, List.drop_one, List.tail_cons]
    rw [zip_ends_cons, hstop, List.filterMap_cons, hF, ih]
    cases a with
    | pub => simp [hsection, Access.word]
    | priv => simp [Access.word]
    | prot => simp [Access.word]

/-- The public sections of a class body: the whole body when it has no label, and otherwise
the section texts of the groups under `public:`. -/
theorem publicSections_sectionText {cls : String} (hcls : IsName cls) {ms : List Member}
    (hms : ∀ m ∈ ms, m.WellFormed cls) :
    publicSections (sectionText cls ms) =
      if (labelGroups ms).2 = [] then [sectionText cls ms]
      else ((labelGroups ms).2.filter fun g => decide (g.1 = .pub)).map
        fun g => sectionText cls g.2 := by
  obtain ⟨hpre, hgroups⟩ := labelGroups_labelFree ms
  -- every member of a group is one of the class's members
  have hmem := labelGroups_spec ms
  have hpre' : ∀ m ∈ (labelGroups ms).1, m.WellFormed cls ∧ m.isLabel = false := fun m hm =>
    ⟨hms m (hmem ▸ List.mem_append_left _ hm), hpre m hm⟩
  have hgroups' : ∀ g ∈ (labelGroups ms).2, ∀ m ∈ g.2, m.WellFormed cls ∧ m.isLabel = false :=
    fun g hg m hm => ⟨hms m (hmem ▸ List.mem_append_right _
      (List.mem_flatMap.mpr ⟨g, hg, List.mem_cons_of_mem _ hm⟩)), hgroups g hg m hm⟩
  have hlabels : occurrences accessLabelAt none 0 (sectionText cls ms) =
      labelsAt cls (sectionText cls (labelGroups ms).1).length (labelGroups ms).2 := by
    rw [sectionText_labelGroups, occurrences_append_of_quiet _ (quiet_sectionText hcls hpre' _ _),
      sectionText_getLast?, Option.some_or, Nat.zero_add, occurrences_groupsText hcls hgroups']
  unfold publicSections
  simp only [hlabels]
  cases hgs : (labelGroups ms).2 with
  | nil => simp [labelsAt]
  | cons g gs =>
    have hne : (labelsAt cls (sectionText cls (labelGroups ms).1).length (g :: gs)).isEmpty =
        false := by
      obtain ⟨a, g⟩ := g
      rfl
    rw [if_neg (by simp [hne]), if_neg (List.cons_ne_nil g gs)]
    exact filterMap_labelsAt (fun _ _ _ _ => rfl) (g :: gs) _
      (by rw [← hgs, ← sectionText_labelGroups])

/-! ## Reading the members -/

/-- What the reader makes of a member of class `cls`: a constructor, tagged `true`, or a
method, tagged `false`. -/
def Member.decl? (cls : String) : Member → Option (Bool × FunctionDecl)
  | .ctor ps => some (true, FunctionDecl.constructor cls ps)
  | .method ret name ps => some (false, FunctionDecl.method cls name ret ps)
  | .label _ => none

/-- Results only ever read as prototypes leave no malformed fragment. -/
@[simp]
theorem malformedOf_map_ok (ps : List Prototype) : malformedOf (ps.map .ok) = [] := by
  simp [malformedOf, List.filterMap_map]

@[simp]
theorem prototypesOf_map_ok (ps : List Prototype) : prototypesOf (ps.map .ok) = ps := by
  simp [prototypesOf, List.filterMap_map]

/-- Reading each member's prototype with a reader that turns it into what the member
declares gives the members' declarations and no warning. -/
theorem flatMap_memberReads {cls : String}
    {f : Prototype → List (Bool × FunctionDecl) × List Warning} {ms : List Member}
    (hf : ∀ m ∈ ms, ∀ p, m.prototype cls = some p → f p = ((m.decl? cls).toList, [])) :
    (((ms.filterMap (Member.prototype cls)).map f).flatMap (·.1),
      ((ms.filterMap (Member.prototype cls)).map f).flatMap (·.2)) =
      (ms.filterMap (Member.decl? cls), []) := by
  induction ms with
  | nil => rfl
  | cons m ms ih =>
    have ih' := ih fun m' hm' => hf m' (List.mem_cons_of_mem m hm')
    simp only [Prod.mk.injEq] at ih' ⊢
    cases m with
    | label a =>
      have hp : (Member.label a).prototype cls = none := rfl
      have hd : (Member.label a).decl? cls = none := rfl
      simpa only [List.filterMap_cons, hp, hd] using ih'
    | ctor ps =>
      have h := hf _ List.mem_cons_self _ rfl
      simp only [List.filterMap_cons, Member.prototype, List.map_cons, List.flatMap_cons, h,
        Member.decl?, Option.toList_some, List.singleton_append, List.nil_append, ih']
      exact ⟨trivial, trivial⟩
    | method ret name ps =>
      have h := hf _ List.mem_cons_self _ rfl
      simp only [List.filterMap_cons, Member.prototype, List.map_cons, List.flatMap_cons, h,
        Member.decl?, Option.toList_some, List.singleton_append, List.nil_append, ih']
      exact ⟨trivial, trivial⟩

theorem spelling_isEmpty (t : ValueType) : t.spelling.isEmpty = false := by
  cases t <;> rfl

/-- A section of declaration lines is read as the members' constructors and methods. -/
theorem readSection_sectionText {cls : String} (hcls : IsName cls) {ms : List Member}
    (hms : ∀ m ∈ ms, m.WellFormed cls ∧ m.isLabel = false ∧
      ∀ n ∈ m.declName cls, startsWith n.toList "operator" = false) :
    readSection cls (sectionText cls ms) = (ms.filterMap (Member.decl? cls), []) := by
  have hfound : scanPrototypes false (sectionText cls ms) =
      (ms.filterMap (Member.prototype cls)).map .ok := by
    rw [scanPrototypes, if_neg Bool.false_ne_true, sectionText, membersFrom_memberLines hcls hms,
      List.map_filterMap]
  simp only [readSection, hfound, malformedOf_map_ok, prototypesOf_map_ok, List.map_nil,
    List.nil_append]
  refine flatMap_memberReads fun m hm p hp => ?_
  obtain ⟨hwf, -, -⟩ := hms m hm
  cases m with
  | ctor ps =>
    simp only [Member.prototype, Option.some.injEq] at hp
    subst hp
    simp [memberOf, readParameters_paramsText hwf, Member.decl?]
  | method ret name ps =>
    simp only [Member.prototype, Option.some.injEq] at hp
    subst hp
    simp [memberOf, typedPrototype, readParameters_paramsText hwf.2.2, hwf.2.1, spelling_isEmpty,
      resolveDeclared_spelling, Member.decl?]
  | label a => simp [Member.prototype] at hp

/-- Reading the sections of the groups under `public:`. -/
theorem readSections_groups {cls : String} (gs : List (Access × List Member))
    (hgs : ∀ g ∈ gs, g.1 = .pub →
      readSection cls (sectionText cls g.2) = (g.2.filterMap (Member.decl? cls), [])) :
    ((((gs.filter fun g => decide (g.1 = .pub)).map fun g => sectionText cls g.2).map
        (readSection cls)).flatMap (·.1),
      (((gs.filter fun g => decide (g.1 = .pub)).map fun g => sectionText cls g.2).map
        (readSection cls)).flatMap (·.2)) =
      ((gs.flatMap fun g => if g.1 = .pub then g.2 else []).filterMap (Member.decl? cls), []) := by
  induction gs with
  | nil => rfl
  | cons g gs ih =>
    have ih' := ih fun g' hg' => hgs g' (List.mem_cons_of_mem g hg')
    simp only [Prod.mk.injEq] at ih' ⊢
    by_cases hg : g.1 = .pub
    · rw [List.filter_cons_of_pos (by simpa using hg)]
      simp only [List.map_cons, List.flatMap_cons, if_pos hg, hgs g List.mem_cons_self hg,
        List.filterMap_append, ih'.1, ih'.2]
      simp
    · rw [List.filter_cons_of_neg (by simpa using hg)]
      simp only [List.flatMap_cons, if_neg hg, List.nil_append]
      exact ih'

/-- The public sections of a well-formed class body are read as the constructors and methods
its public members declare. -/
theorem readSections_sectionText {cls : String} (hcls : IsName cls) {ms : List Member}
    (hms : ∀ m ∈ ms, m.WellFormed cls)
    (hop : ∀ m ∈ publicMembers ms, ∀ n ∈ m.declName cls, startsWith n.toList "operator" = false) :
    ((((publicSections (sectionText cls ms)).map (readSection cls)).flatMap (·.1)),
      ((publicSections (sectionText cls ms)).map (readSection cls)).flatMap (·.2)) =
      ((publicMembers ms).filterMap (Member.decl? cls), []) := by
  obtain ⟨hpre, hgroups⟩ := labelGroups_labelFree ms
  have hspec := labelGroups_spec ms
  rw [publicSections_sectionText hcls hms, publicMembers, any_isLabel_labelGroups]
  cases hgs : (labelGroups ms).2 with
  | nil =>
    -- no label: the whole body is one section of all the members
    rw [hgs, List.flatMap_nil, List.append_nil] at hspec
    have hfree : ∀ m ∈ ms, m.WellFormed cls ∧ m.isLabel = false ∧
        ∀ n ∈ m.declName cls, startsWith n.toList "operator" = false := by
      intro m hm
      refine ⟨hms m hm, hpre m (hspec ▸ hm), hop m ?_⟩
      simp [publicMembers, any_isLabel_labelGroups, hgs, hm]
    simp [readSection_sectionText hcls hfree]
  | cons g gs =>
    have hunder := membersUnder_labelGroups false ms
    rw [hgs] at hunder hgroups hspec
    simp only [List.isEmpty_cons, Bool.not_false, if_true, reduceCtorEq, if_false, hunder,
      Bool.false_eq_true, List.nil_append]
    refine readSections_groups (g :: gs) fun g' hg' hpub => readSection_sectionText hcls ?_
    intro m hm
    have hin : m ∈ ms := hspec ▸ List.mem_append_right _
      (List.mem_flatMap.mpr ⟨g', hg', List.mem_cons_of_mem _ hm⟩)
    refine ⟨hms m hin, hgroups g' hg' m hm, hop m ?_⟩
    simp only [publicMembers, any_isLabel_labelGroups, hgs, List.isEmpty_cons, Bool.not_false,
      if_true, hunder, Bool.false_eq_true, if_false, List.nil_append, List.mem_flatMap]
    exact ⟨g', hg', by simp [hpub, hm]⟩

theorem filterMap_decl_method {cls : String} {sel : Bool × FunctionDecl → Option FunctionDecl}
    (hsel : ∀ b f, sel (b, f) = if b then none else some f) (ms : List Member) :
    (ms.filterMap (Member.decl? cls)).filterMap sel = ms.filterMap (Member.method? cls) := by
  rw [List.filterMap_filterMap]
  refine List.filterMap_congr fun m _ => ?_
  cases m <;> simp [Member.decl?, Member.method?, hsel]

theorem filterMap_decl_ctor {cls : String} {sel : Bool × FunctionDecl → Option FunctionDecl}
    (hsel : ∀ b f, sel (b, f) = if b then some f else none) (ms : List Member) :
    (ms.filterMap (Member.decl? cls)).filterMap sel = ms.filterMap (Member.ctor? cls) := by
  rw [List.filterMap_filterMap]
  refine List.filterMap_congr fun m _ => ?_
  cases m <;> simp [Member.decl?, Member.ctor?, hsel]

/-- A class's text read from its head at `pos`: the class it declares, if it declares a
method or a constructor publicly, the text from its head to its closing brace, and no
warning. -/
theorem readClass_classText {cls : String} (hcls : IsName cls) {ms : List Member}
    (hms : ∀ m ∈ ms, m.WellFormed cls)
    (hop : ∀ m ∈ publicMembers ms, ∀ n ∈ m.declName cls, startsWith n.toList "operator" = false)
    (pos : Nat) :
    readClass { name := cls,
                close := some ((classHeadText cls).length + (sectionText cls ms).length),
                body := sectionText cls ms } pos =
      { decl := (Block.classes (.classDecl cls ms)).head?,
        span := some (pos, pos + ((classHeadText cls).length + (sectionText cls ms).length) + 1),
        warnings := [] } := by
  have hread := readSections_sectionText hcls hms hop
  simp only [Prod.mk.injEq] at hread
  simp only [readClass, classDeclOf, flattenFrom_cutFrom_sectionText hcls hms, hread.1, hread.2]
  rw [filterMap_decl_method, filterMap_decl_ctor]
  · simp only [Block.classes]
    split <;> simp_all
  all_goals intro b f; rfl

/-! ## The classes of a header -/

/-- The spans of text the classes among blocks take, the first block starting at `pos`: each
runs from the class's head to its closing brace. -/
def classSpans : Nat → List Block → List (Nat × Nat)
  | _, [] => []
  | pos, .classDecl cls ms :: bs =>
    (pos, pos + ((classHeadText cls).length + (sectionText cls ms).length) + 1) ::
      classSpans (pos + (linesText (Block.classDecl cls ms).lines).length) bs
  | pos, b :: bs => classSpans (pos + (linesText b.lines).length) bs

theorem headerText_cons (b : Block) (bs : List Block) :
    headerText (b :: bs) = linesText b.lines ++ headerText bs := by
  simp [headerText, linesText_append]

theorem linesText_classDecl (cls : String) (ms : List Member) :
    linesText (Block.classDecl cls ms).lines =
      classHeadText cls ++ (sectionText cls ms ++ ['}', ';', '\n']) := by
  simp [Block.lines, linesText_append, sectionText]

/-- Lines of text end with a newline. -/
theorem linesText_getLast?_of_ne_nil {ls : List (List Char)} (h : ls ≠ []) :
    (linesText ls).getLast? = some '\n' := by
  obtain ⟨ls', l, rfl⟩ := (List.eq_nil_or_concat ls).resolve_left h
  rw [List.concat_eq_append, linesText_append, linesText_cons, linesText_nil, ← List.append_assoc, List.getLast?_concat]

theorem Block.linesText_getLast? (b : Block) : (linesText b.lines).getLast? = some '\n' := by
  have h : b.lines ≠ [] := by
    cases b <;> simp [Block.lines]
  exact linesText_getLast?_of_ne_nil h

/-- A block declares at most one class. -/
theorem Block.classes_head? (b : Block) : (Block.classes b).head?.toList = Block.classes b := by
  cases b with
  | classDecl cls ms =>
    simp only [Block.classes]
    split <;> rfl
  | define name value => rfl
  | function ret name ps => rfl

theorem classHeadAt_newline (prev : Option Char) (rest : List Char) :
    classHeadAt prev ('\n' :: rest) = none := by
  simp [classHeadAt, startsWith, guard]

/-- Inside a class of well-formed members no class opens. -/
theorem quiet_classBody {cls : String} (hcls : IsName cls) {ms : List Member}
    (hms : ∀ m ∈ ms, m.WellFormed cls) (prev : Option Char) (rest : List Char) :
    Quiet classHeadAt prev (sectionText cls ms ++ ['}', ';', '\n']) rest := by
  have hlines : ∀ l ∈ ms.map (Member.text cls), ∀ prev' rest',
      Quiet classHeadAt prev' (l ++ ['\n']) rest' := by
    intro l hl prev' rest'
    obtain ⟨m, hm, rfl⟩ := List.mem_map.mp hl
    exact Member.quiet_class hcls (hms m hm) prev' rest'
  rw [sectionText, ← List.singleton_append, List.append_assoc]
  exact Quiet.append (quiet_singleton (classHeadAt_newline prev _))
    (Quiet.append (quiet_linesText hlines _ _) (quiet_close_class _ rest))

/-- The class reader on the text of well-formed blocks after a character that ends no word:
the classes the blocks declare, the spans `classSpans` gives, and no warning. -/
theorem readings_headerText {F : ClassHead × Nat × Nat → ClassReading}
    (hF : ∀ head pos n, F (head, pos, n) = readClass head pos) :
    ∀ (bs : List Block), (∀ b ∈ bs, b.WellFormed) →
    (∀ cls ms, Block.classDecl cls ms ∈ bs → (Block.classDecl cls ms).OperatorFree) →
    ∀ (prev : Option Char) (pos : Nat), (prev.map isWordChar).getD false = false →
      (((occurrences classHeadAt prev pos (headerText bs)).map F).filterMap (·.decl),
        ((occurrences classHeadAt prev pos (headerText bs)).map F).filterMap (·.span),
        ((occurrences classHeadAt prev pos (headerText bs)).map F).flatMap (·.warnings)) =
        (bs.flatMap Block.classes, classSpans pos bs, [])
  | [], _, _, prev, pos, _ => by simp [headerText, occurrences, classSpans]
  | b :: bs, hbs, hops, prev, pos, hprev => by
    have hb := hbs b List.mem_cons_self
    have ih := readings_headerText hF bs (fun b' hb' => hbs b' (List.mem_cons_of_mem b hb'))
      (fun cls ms h => hops cls ms (List.mem_cons_of_mem b h)) (some '\n')
    rw [headerText_cons]
    cases b with
    | classDecl cls ms =>
      -- the class opens at its head line, and nothing opens inside it
      have hop := hops cls ms List.mem_cons_self
      have hfound := classHeadAt_classText hb.1 (sectionText_bodyChars hb.1 hb.2) hprev
        (';' :: '\n' :: headerText bs)
      have hlen : pos + (classHeadText cls).length + (sectionText cls ms ++ ['}', ';', '\n']).length =
          pos + (linesText (Block.classDecl cls ms).lines).length := by
        rw [linesText_classDecl]
        simp only [List.length_append]
        omega
      rw [linesText_classDecl, List.append_assoc,
        occurrences_append_of_found (by simp [classHeadText_eq]) (by simpa using hfound),
        occurrences_append_of_quiet _ (quiet_classBody hb.1 hb.2 _ _), List.getLast?_append]
      simp only [List.getLast?_cons_cons, List.getLast?_singleton, Option.some_or, hlen]
      rw [List.map_cons, hF, readClass_classText hb.1 hb.2 hop]
      simp only [Prod.mk.injEq] at ih ⊢
      obtain ⟨ih₁, ih₂, ih₃⟩ := ih (pos + (linesText (Block.classDecl cls ms).lines).length) rfl
      refine ⟨?_, ?_, ?_⟩
      · -- the class reading holds the block's class, if it has one
        have hhead := Block.classes_head? (.classDecl cls ms)
        rw [List.flatMap_cons]
        cases h : (Block.classes (.classDecl cls ms)).head? <;>
          (simp only [List.filterMap_cons, ih₁]; rw [← hhead, h]; rfl)
      · rw [List.filterMap_cons, ih₂]
        rfl
      · rw [List.flatMap_cons, ih₃]
        rfl
    | define name value | function ret name ps =>
      -- no class opens in the lines of a constant or a free function
      rw [occurrences_append_of_quiet _ (quiet_linesText (Block.quiet_class hb (by simp)) _ _),
        Block.linesText_getLast?, Option.some_or]
      exact ih _ rfl

/-- The classes of a header written from well-formed blocks, whose classes declare no public
name starting with `operator`, are exactly the classes the blocks declare; each takes the text
from its head to its closing brace; nothing is warned about. -/
theorem readClasses_headerText {bs : List Block} (hbs : ∀ b ∈ bs, b.WellFormed)
    (hops : ∀ cls ms, Block.classDecl cls ms ∈ bs → (Block.classDecl cls ms).OperatorFree) :
    readClasses (headerText bs) = (bs.flatMap Block.classes, classSpans 0 bs, []) :=
  readings_headerText (fun _ _ _ => rfl) bs hbs hops none 0 rfl

end Breadboard.Header
