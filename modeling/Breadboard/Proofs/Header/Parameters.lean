import Mathlib.Data.List.Infix
import Mathlib.Data.List.TakeDrop
import Mathlib.Data.List.TakeWhile
import Breadboard.Proofs.Header.Names

/-!
# Reading back a written parameter list

A parameter is written `TYPE NAME` or `TYPE NAME = DEFAULT`, and a list joins its parameters
with `, `. The type's spelling, the name and ` = ` hold no quote, bracket or parenthesis, so the
reader's nesting state is back at its start after each of them; a default that leaves the
nesting as it found it, with no comma at depth zero, keeps it there too. So the list splits
exactly at the commas between parameters, and in each parameter the first `=` at depth zero is
the one before the default. The name is the last word before it, and the words before the name
are the tokens of the type's spelling, which resolve to the type.

Main statements: `readParameters_inverts_writing`, for names that are identifiers and no
reserved word, and defaults that read back (`DefaultReadsBack`: brackets balanced and literals
closed, no comma at depth zero, no `...`); and `readParameters_paramsText`, for the parameters
a header writes (`ParamOk`). Below them, `splitList_intercalate`: any pieces that are trimmed,
not empty, balanced and free of commas at depth zero (`SplitsBack`), joined with `, `, split
back into themselves.
-/

namespace Breadboard.Header

open Text

/-! ## Scanning with nesting -/

namespace Nesting

/-- The nesting state after scanning `cs` from `st`. -/
def run (st : Nesting) : List Char → Nesting
  | [] => st
  | c :: cs => (st.feed c).1.run cs

/-- Whether scanning `cs` from `st` meets the character `x` at depth zero outside any
literal. -/
def topHas (x : Char) (st : Nesting) : List Char → Bool
  | [] => false
  | c :: cs => ((st.feed c).2 && c == x) || (st.feed c).1.topHas x cs

theorem run_append (st : Nesting) (a b : List Char) : st.run (a ++ b) = (st.run a).run b := by
  induction a generalizing st with
  | nil => rfl
  | cons c a ih => exact ih _

theorem topHas_append (x : Char) (st : Nesting) (a b : List Char) :
    st.topHas x (a ++ b) = (st.topHas x a || (st.run a).topHas x b) := by
  induction a generalizing st with
  | nil => rfl
  | cons c a ih => simp only [List.cons_append, topHas, run, ih, Bool.or_assoc]

end Nesting

/-! ## Characters that do not nest -/

/-- A character that leaves the nesting of a parameter list as it is: no quote and no
bracket. -/
def isFlat (c : Char) : Bool :=
  !(['"', '\'', '<', '>', '(', ')'].contains c)

theorem feed_flat {c : Char} (h : isFlat c = true) : Nesting.feed {} c = ({}, true) := by
  have hm : c ∉ ['"', '\'', '<', '>', '(', ')'] := by simpa [isFlat] using h
  simp only [List.mem_cons, List.not_mem_nil, or_false, not_or] at hm
  simp [Nesting.feed, hm]

theorem run_flat {xs : List Char} (hx : ∀ c ∈ xs, isFlat c = true) : Nesting.run {} xs = {} := by
  induction xs with
  | nil => rfl
  | cons c xs ih =>
    rw [Nesting.run, feed_flat (hx c List.mem_cons_self)]
    exact ih fun d hd => hx d (List.mem_cons_of_mem c hd)

/-- Flat characters stand at depth zero, so `x` is met exactly where it occurs. -/
theorem topHas_flat {x : Char} {xs : List Char} (hx : ∀ c ∈ xs, isFlat c = true ∧ c ≠ x) :
    Nesting.topHas x {} xs = false := by
  induction xs with
  | nil => rfl
  | cons c xs ih =>
    obtain ⟨hflat, hne⟩ := hx c List.mem_cons_self
    rw [Nesting.topHas, feed_flat hflat, ih fun d hd => hx d (List.mem_cons_of_mem c hd)]
    simp [hne]

/-- A character of some class lies outside a list that holds none of that class. -/
theorem contains_eq_false_of_class {k : Char → Bool} {c : Char} (hc : k c = true)
    {l : List Char} (hl : l.all (fun d => !k d) = true) : l.contains c = false := by
  rw [Bool.eq_false_iff, ne_eq, List.contains_iff_mem]
  intro hm
  have := List.all_eq_true.mp hl c hm
  rw [hc] at this
  cases this

theorem isFlat_of_spelling {c : Char} (hc : isSpellingChar c = true) : isFlat c = true := by
  simp only [isFlat, Bool.not_eq_true']
  exact contains_eq_false_of_class hc (by rfl)

theorem ne_comma_of_spelling {c : Char} (hc : isSpellingChar c = true) : c ≠ ',' :=
  ne_of_isSpellingChar hc (by rfl)

theorem ne_equals_of_spelling {c : Char} (hc : isSpellingChar c = true) : c ≠ '=' :=
  ne_of_isSpellingChar hc (by rfl)

theorem isSpellingChar_of_ident {c : Char} (hc : IsIdentChar c) : isSpellingChar c = true := by
  rcases hc with hc | rfl
  · simp [isSpellingChar, hc]
  · rfl

/-! ## Parameters that read back -/

/-- A default value that reads back unchanged: not empty, trimmed, without `...`, with no comma
at depth zero outside a literal, and leaving the nesting as it found it (every `<` and `(`
closed, every literal closed). -/
structure DefaultReadsBack (d : String) : Prop where
  ne_empty : d ≠ ""
  trimmed : trim d = d
  no_dots : ¬ "...".toList <:+: d.toList
  no_top_comma : Nesting.topHas ',' {} d.toList = false
  balanced : Nesting.run {} d.toList = {}

instance (d : String) : Decidable (DefaultReadsBack d) :=
  decidable_of_iff (d ≠ "" ∧ trim d = d ∧ ¬ "...".toList <:+: d.toList ∧
      Nesting.topHas ',' {} d.toList = false ∧ Nesting.run {} d.toList = {})
    ⟨fun ⟨a, b, c, e, f⟩ => ⟨a, b, c, e, f⟩, fun ⟨a, b, c, e, f⟩ => ⟨a, b, c, e, f⟩⟩

/-- A parameter that its written form reads back as: its name is an ASCII identifier and no
reserved word, and its default, if any, reads back. -/
structure ReadsBack (p : Parameter) : Prop where
  ident : isIdentifier p.name.toList = true
  not_reserved : p.name ∉ reservedWords
  default : ∀ d ∈ p.defaultValue, DefaultReadsBack d

instance (p : Parameter) : Decidable (ReadsBack p) :=
  decidable_of_iff (isIdentifier p.name.toList = true ∧ p.name ∉ reservedWords ∧
      ∀ d ∈ p.defaultValue, DefaultReadsBack d)
    ⟨fun ⟨a, b, c⟩ => ⟨a, b, c⟩, fun ⟨a, b, c⟩ => ⟨a, b, c⟩⟩

theorem reservedWords_keywords : ∀ w ∈ reservedWords, w ∈ cppKeywords := by
  decide

/-- A default holds no quote, bracket or comma. -/
theorem IsDefault.flat {d : String} (hd : IsDefault d) :
    ∀ c ∈ d.toList, isFlat c = true ∧ c ≠ ',' := by
  intro c hc
  have hout := List.all_eq_true.mp hd.2.1 c hc
  simp at hout
  obtain ⟨h1, h2, h3, h4, h5, h6, h7, -⟩ := hout
  exact ⟨by simp [isFlat, h1, h2, h3, h4, h6, h7], h5⟩

/-- A default a header writes reads back: it never leaves depth zero. -/
theorem IsDefault.readsBack {d : String} (hd : IsDefault d) : DefaultReadsBack d where
  ne_empty := hd.1.1
  trimmed := hd.1.2.1
  no_dots := fun h => by simpa [hd.2.2] using containsText_eq_true_iff.mpr h
  no_top_comma := topHas_flat hd.flat
  balanced := run_flat fun c hc => (hd.flat c hc).1

theorem ParamOk.readsBack {p : Parameter} (hp : ParamOk p) : ReadsBack p where
  ident := hp.1.1
  not_reserved := hp.1.not_mem reservedWords_keywords
  default := fun d hd => (hp.2 d hd).readsBack

/-- A trimmed non-empty text starts and ends with a character that is not blank. -/
theorem ends_of_trimmed {s : String} (hne : s ≠ "") (ht : trim s = s) :
    s.toList ≠ [] ∧ (∀ c, s.toList.head? = some c → isBlank c = false) ∧
      (∀ c, s.toList.getLast? = some c → isBlank c = false) := by
  have htrim : trimChars s.toList = s.toList := by
    have := congrArg String.toList ht
    simpa [trim] using this
  exact ⟨fun h => hne (String.toList_eq_nil_iff.mp h), trimChars_ends htrim⟩

/-! ## The characters of a written parameter -/

theorem isSpellingChar_of_name {n : String} (hn : IsName n) {c : Char} (hc : c ∈ n.toList) :
    isSpellingChar c = true :=
  isSpellingChar_of_ident (hn.chars c hc)

/-- The declaration of a written parameter, `TYPE NAME`, is made of spelling characters. -/
theorem Parameter.declText_chars {p : Parameter} (hp : isIdentifier p.name.toList = true) :
    ∀ c ∈ p.declText, isSpellingChar c = true := by
  intro c hc
  rcases List.mem_append.mp hc with hc | hc
  · exact mem_spelling hc
  · rcases List.mem_cons.mp hc with rfl | hc
    · rfl
    · exact isSpellingChar_of_ident (isIdentifier_chars hp c hc)

/-- A type's spelling, a blank and a name: the text starts with the spelling's letter and ends
with the name's last character. -/
theorem typedName_ends (t : ValueType) {n : String} (hn : isIdentifier n.toList = true) :
    t.spelling.toList ++ ' ' :: n.toList ≠ [] ∧
      (∀ c, (t.spelling.toList ++ ' ' :: n.toList).head? = some c → isBlank c = false) ∧
      (∀ c, (t.spelling.toList ++ ' ' :: n.toList).getLast? = some c → isBlank c = false) := by
  obtain ⟨a, as, hsp, hhead⟩ := spelling_opens t
  have hne := isIdentifier_ne_nil hn
  refine ⟨by simp [hsp], fun c hc => ?_, fun c hc => ?_⟩
  · rw [hsp] at hc
    simp only [List.cons_append, List.head?_cons, Option.some.injEq] at hc
    subst hc
    exact (IsIdentChar.of_isAlpha hhead).isBlank_eq_false
  · rw [List.getLast?_append, List.getLast?_cons, List.getLast?_eq_some_getLast hne] at hc
    simp only [Option.getD_some, Option.some_or, Option.some.injEq] at hc
    subst hc
    exact (isIdentifier_chars hn _ (List.getLast_mem hne)).isBlank_eq_false

/-- The declaration of a written parameter starts with the letter of its type and ends with
the last character of its name. -/
theorem Parameter.declText_ends {p : Parameter} (hp : isIdentifier p.name.toList = true) :
    p.declText ≠ [] ∧ (∀ c, p.declText.head? = some c → isBlank c = false) ∧
      (∀ c, p.declText.getLast? = some c → isBlank c = false) :=
  typedName_ends p.type hp

theorem Parameter.trimChars_declText {p : Parameter} (hp : isIdentifier p.name.toList = true) :
    trimChars p.declText = p.declText := by
  obtain ⟨hne, hhead, hlast⟩ := Parameter.declText_ends hp
  exact trimChars_of_ends hne hhead hlast

/-- The text of a written parameter: its declaration, then ` = ` and the default if any. -/
theorem Parameter.text_eq (p : Parameter) :
    p.text = p.declText ++
      (match p.defaultValue with
        | none => []
        | some d => ' ' :: '=' :: ' ' :: d.toList) := by
  cases h : p.defaultValue <;> simp [Parameter.text, h]

/-- The declaration and ` = ` are flat and hold no comma, so the scan of a written parameter
ends where it starts and meets no comma at depth zero. -/
theorem Parameter.scan_text {p : Parameter} (hp : ReadsBack p) :
    Nesting.run {} p.text = {} ∧ Nesting.topHas ',' {} p.text = false := by
  have hdecl : ∀ c ∈ p.declText, isFlat c = true ∧ c ≠ ',' := fun c hc =>
    ⟨isFlat_of_spelling (Parameter.declText_chars hp.ident c hc),
      ne_comma_of_spelling (Parameter.declText_chars hp.ident c hc)⟩
  have hrun : Nesting.run {} p.declText = {} := run_flat fun c hc => (hdecl c hc).1
  rw [Parameter.text_eq, Nesting.run_append, Nesting.topHas_append, hrun, topHas_flat hdecl,
    Bool.false_or]
  cases hdv : p.defaultValue with
  | none => exact ⟨rfl, rfl⟩
  | some d =>
    -- ` = ` is flat, then the default leaves the nesting at its start
    have hd := hp.default d hdv
    have hsep : ∀ c ∈ [' ', '=', ' '], isFlat c = true ∧ c ≠ ',' := by
      intro c hc
      simp only [List.mem_cons, List.not_mem_nil, or_false] at hc
      rcases hc with rfl | rfl | rfl <;> exact ⟨rfl, by decide⟩
    dsimp only
    rw [show ' ' :: '=' :: ' ' :: d.toList = [' ', '=', ' '] ++ d.toList from rfl,
      Nesting.run_append, Nesting.topHas_append, run_flat fun c hc => (hsep c hc).1,
      topHas_flat hsep]
    exact ⟨hd.balanced, hd.no_top_comma⟩

/-- A written parameter is non-empty and starts and ends with a character that is not
blank. -/
theorem Parameter.text_ends {p : Parameter} (hp : ReadsBack p) :
    p.text ≠ [] ∧ (∀ c, p.text.head? = some c → isBlank c = false) ∧
      (∀ c, p.text.getLast? = some c → isBlank c = false) := by
  obtain ⟨hne, hhead, hlast⟩ := Parameter.declText_ends hp.ident
  refine ⟨by simp [Parameter.text, hne], fun c hc => hhead c ?_, fun c hc => ?_⟩
  · rwa [Parameter.text, List.head?_append_of_ne_nil _ hne] at hc
  · rw [Parameter.text_eq] at hc
    cases hdv : p.defaultValue with
    | none =>
      simp only [hdv, List.append_nil] at hc
      exact hlast c hc
    | some d =>
      have hd := hp.default d hdv
      obtain ⟨hdne, -, hdlast⟩ := ends_of_trimmed hd.ne_empty hd.trimmed
      simp only [hdv, List.getLast?_append, List.getLast?_cons, List.getLast?_eq_some_getLast hdne,
        Option.getD_some, Option.some_or, Option.some.injEq] at hc
      subst hc
      exact hdlast _ (List.getLast?_eq_some_getLast hdne)

/-! ## Splitting at commas and finding the first `=` -/

/-- Scanning past a piece that meets no comma at depth zero splits nowhere in it. -/
theorem piecesFrom_append {st : Nesting} {xs : List Char} (hx : st.topHas ',' xs = false)
    (cur rest : List Char) :
    piecesFrom st cur (xs ++ rest) = piecesFrom (st.run xs) (xs.reverse ++ cur) rest := by
  induction xs generalizing st cur with
  | nil => rfl
  | cons c xs ih =>
    simp only [Nesting.topHas, Bool.or_eq_false_iff, Bool.and_eq_false_iff, beq_eq_false_iff_ne]
      at hx
    obtain ⟨hc, hxs⟩ := hx
    have hsplit : ¬ ((st.feed c).2 = true ∧ c = ',') := by
      rintro ⟨htop, rfl⟩
      rcases hc with hc | hc
      · rw [htop] at hc
        cases hc
      · exact hc rfl
    rw [List.cons_append, piecesFrom]
    simp only [hsplit, if_false]
    rw [ih hxs, List.reverse_cons, List.append_assoc]
    rfl

theorem piecesFrom_comma (cur rest : List Char) :
    piecesFrom {} cur (',' :: rest) = trimChars cur.reverse :: piecesFrom {} [] rest := by
  rw [piecesFrom, feed_flat (by rfl)]
  simp

/-- Pieces joined by `, `, each leaving the nesting at its start and meeting no comma at depth
zero, split at the joining commas; `cur` is what the splitter holds before the first piece. The
induction is on the pieces, and the nesting is back at its start after each of them. -/
theorem piecesFrom_intercalate {p : List Char} {ps : List (List Char)}
    (hps : ∀ q ∈ p :: ps, Nesting.run {} q = {} ∧ Nesting.topHas ',' {} q = false)
    (cur : List Char) :
    piecesFrom {} cur ([',', ' '].intercalate (p :: ps)) =
      trimChars (cur.reverse ++ p) :: ps.map fun q => trimChars (' ' :: q) := by
  obtain ⟨hrun, htop⟩ := hps p List.mem_cons_self
  induction ps generalizing p cur with
  | nil =>
    have := piecesFrom_append htop cur []
    rw [List.append_nil, hrun] at this
    simp [this, piecesFrom]
  | cons q qs ih =>
    obtain ⟨hrun', htop'⟩ := hps q (List.mem_cons_of_mem p List.mem_cons_self)
    have hblank : Nesting.topHas ',' {} [' '] = false := rfl
    rw [List.intercalate_cons_cons, List.append_assoc, piecesFrom_append htop, hrun,
      List.cons_append, piecesFrom_comma, piecesFrom_append hblank,
      show Nesting.run {} [' '] = {} from rfl,
      List.reverse_singleton, List.singleton_append,
      ih (fun r hr => hps r (List.mem_cons_of_mem p hr)) [' '] hrun' htop']
    simp

/-- Before the first `=` at depth zero, the scan for it moves on one position a character. -/
theorem scanEquals_append {st : Nesting} {xs : List Char} (hx : st.topHas '=' xs = false)
    (i : Nat) (rest : List Char) :
    scanEquals st i none (xs ++ rest) = scanEquals (st.run xs) (i + xs.length) none rest := by
  induction xs generalizing st i with
  | nil => rfl
  | cons c xs ih =>
    simp only [Nesting.topHas, Bool.or_eq_false_iff, Bool.and_eq_false_iff, beq_eq_false_iff_ne]
      at hx
    obtain ⟨hc, hxs⟩ := hx
    have hfound : ¬ ((st.feed c).2 = true ∧ c = '=') := by
      rintro ⟨htop, rfl⟩
      rcases hc with hc | hc
      · rw [htop] at hc
        cases hc
      · exact hc rfl
    rw [List.cons_append, scanEquals]
    simp only [Option.isNone_none, true_and, hfound, if_false]
    rw [ih hxs, Nesting.run, List.length_cons, Nat.add_assoc, Nat.add_comm 1]

/-- Once an `=` is found, the scan keeps it and only follows the nesting. -/
theorem scanEquals_found (st : Nesting) (i k : Nat) (xs : List Char) :
    scanEquals st i (some k) xs = (some k, st.run xs) := by
  induction xs generalizing st i with
  | nil => rfl
  | cons c xs ih =>
    rw [scanEquals]
    simp only [Option.isNone_some, Bool.false_eq_true, false_and, if_false]
    exact ih _ (i + 1)

/-! ## Joined pieces split back -/

/-- A piece of a parameter list that splitting gives back as it is: not empty, trimmed, with no
comma at depth zero outside a literal, and leaving the nesting as it found it (every `<` and `(`
closed, every literal closed). -/
structure SplitsBack (p : String) : Prop where
  ne_empty : p ≠ ""
  trimmed : trim p = p
  no_top_comma : Nesting.topHas ',' {} p.toList = false
  balanced : Nesting.run {} p.toList = {}

instance (p : String) : Decidable (SplitsBack p) :=
  decidable_of_iff (p ≠ "" ∧ trim p = p ∧ Nesting.topHas ',' {} p.toList = false ∧
      Nesting.run {} p.toList = {})
    ⟨fun ⟨a, b, c, d⟩ => ⟨a, b, c, d⟩, fun ⟨a, b, c, d⟩ => ⟨a, b, c, d⟩⟩

/-- Trimming a piece that splits back gives the piece, also with the blank after a comma in
front of it. -/
theorem SplitsBack.trimChars_eq {p : String} (hp : SplitsBack p) :
    trimChars p.toList = p.toList ∧ trimChars (' ' :: p.toList) = p.toList := by
  obtain ⟨hne, hhead, hlast⟩ := ends_of_trimmed hp.ne_empty hp.trimmed
  have hblank := @trimChars_margins [' '] _ [] (List.forall_mem_singleton.mpr rfl) (by simp)
    hne hhead hlast
  exact ⟨trimChars_of_ends hne hhead hlast, by simpa using hblank⟩

/-- Pieces that split back, joined with `, `: the splitter's pieces are the pieces themselves.
Each piece brings the nesting back to its start before the comma after it, and trimming takes off
only the blank after each comma. -/
theorem piecesFrom_joined {p : String} {ps : List String} (hps : ∀ q ∈ p :: ps, SplitsBack q) :
    piecesFrom {} [] (", ".intercalate (p :: ps)).toList = (p :: ps).map String.toList := by
  have hscan : ∀ q ∈ p.toList :: ps.map String.toList,
      Nesting.run {} q = {} ∧ Nesting.topHas ',' {} q = false := by
    rw [← List.map_cons]
    exact List.forall_mem_map.mpr fun q hq => ⟨(hps q hq).balanced, (hps q hq).no_top_comma⟩
  rw [String.toList_intercalate, List.map_cons, show ", ".toList = [',', ' '] from rfl,
    piecesFrom_intercalate hscan [], List.reverse_nil, List.nil_append,
    (hps p List.mem_cons_self).trimChars_eq.1, List.map_map]
  exact congrArg _ (List.map_congr_left fun q hq =>
    (hps q (List.mem_cons_of_mem p hq)).trimChars_eq.2)

/-- No piece that splits back is empty, so the splitter drops none of them. -/
theorem filter_nonempty_map_toList {ps : List String} (hps : ∀ p ∈ ps, SplitsBack p) :
    (ps.map String.toList).filter (!·.isEmpty) = ps.map String.toList := by
  refine List.filter_eq_self.mpr (List.forall_mem_map.mpr fun q hq => ?_)
  simpa using (hps q hq).ne_empty

/-- **Splitting inverts joining with `, `.** Pieces that are not empty, trimmed, balanced and
free of commas at depth zero outside literals, joined with `, `, split back into themselves. -/
theorem splitList_intercalate {ps : List String} (hps : ∀ p ∈ ps, SplitsBack p) :
    splitList (", ".intercalate ps) = ps := by
  cases ps with
  | nil => rfl
  | cons p ps =>
    rw [splitList, piecesFrom_joined hps, filter_nonempty_map_toList hps, List.map_map]
    simp

/-- A template argument list, a string literal, a character literal holding an escaped quote
and a function pointer type, each holding a comma that does not split. -/
def nestedPieces : List String :=
  ["std::map<int, char> m", "const char *s = \"a, b\"", "char c = '\\''", "void (*f)(int, int)"]

theorem splitList_intercalate_nested :
    (∀ p ∈ nestedPieces, SplitsBack p) ∧ splitList (", ".intercalate nestedPieces) = nestedPieces :=
  have h : ∀ p ∈ nestedPieces, SplitsBack p := by decide
  ⟨h, splitList_intercalate h⟩

/-! ## Type spellings resolve to their types -/

/-- A type text in which no qualifier word and no namespace prefix starts anywhere, with no
blank margins and no template, resolves through the plain table. -/
theorem resolveDeclared_of_plain {s : String}
    (hq : s.toList.tails.all (fun t => TypeName.qualifierWords.all fun k => !startsWith t k) = true)
    (hn : s.toList.tails.all (fun t => TypeName.namespaceAt none t == 0) = true)
    (ht : trimChars s.toList = s.toList) (hb : TypeName.templateBase? s.toList = none) :
    TypeName.resolveDeclared s = TypeName.resolve s := by
  have hquals : removeMatches TypeName.qualifierAt none s.toList = s.toList := by
    refine removeMatches_eq_self none s.toList fun prev t _ hts => ?_
    have hk := List.all_eq_true.mp hq t ((List.mem_tails t s.toList).mpr hts)
    have hnone : TypeName.qualifierWords.find? (fun k => startsWith t k &&
        !(((t.drop k.length).head?.map isWordChar).getD false)) = none := by
      rw [List.find?_eq_none]
      intro k hk'
      have := List.all_eq_true.mp hk k hk'
      simp_all
    simp only [TypeName.qualifierAt, hnone, ite_self]
  have hspaces : removeMatches TypeName.namespaceAt none s.toList = s.toList := by
    refine removeMatches_eq_self none s.toList fun prev t _ hts => ?_
    have := List.all_eq_true.mp hn t ((List.mem_tails t s.toList).mpr hts)
    simpa [TypeName.namespaceAt] using this
  simp only [TypeName.resolveDeclared, hquals, ht, hspaces, hb, String.ofList_toList]

/-- The tokens of a spelling, joined again, resolve to the spelled type. -/
theorem resolveDeclared_spellingTokens (t : ValueType) :
    TypeName.resolveDeclared (joinTokens (declTokens t.spelling.toList)) = t := by
  cases t <;> exact (resolveDeclared_of_plain (by rfl) (by rfl) (by rfl) (by rfl)).trans (by rfl)

/-- A spelling resolves to the spelled type. -/
theorem resolveDeclared_spelling (t : ValueType) : TypeName.resolveDeclared t.spelling = t := by
  cases t <;> exact (resolveDeclared_of_plain (by rfl) (by rfl) (by rfl) (by rfl)).trans (by rfl)

/-! ## Reading one parameter -/

/-- The first `=` at depth zero of a written parameter is the one before its default, and the
default leaves the nesting balanced. -/
theorem splitDefault_text {p : Parameter} (hp : ReadsBack p) :
    splitDefault p.text = .ok (p.declText, p.defaultValue.map String.toList) := by
  have hdecl : ∀ c ∈ p.declText, isFlat c = true ∧ c ≠ '=' := fun c hc =>
    ⟨isFlat_of_spelling (Parameter.declText_chars hp.ident c hc),
      ne_equals_of_spelling (Parameter.declText_chars hp.ident c hc)⟩
  rw [Parameter.text_eq]
  cases hdv : p.defaultValue with
  | none =>
    have hscan : scanEquals {} 0 none p.declText = (none, {}) := by
      simpa [scanEquals, run_flat fun c hc => (hdecl c hc).1] using
        scanEquals_append (topHas_flat hdecl) 0 []
    simp [splitDefault, hscan, Parameter.trimChars_declText hp.ident, Nesting.isBalanced]
  | some d =>
    have hd := hp.default d hdv
    obtain ⟨hdne, hdhead, hdlast⟩ := ends_of_trimmed hd.ne_empty hd.trimmed
    -- the scan passes the declaration and the blank, finds the `=`, and keeps it
    have hpre : ∀ c ∈ p.declText ++ [' '], isFlat c = true ∧ c ≠ '=' := by
      intro c hc
      rcases List.mem_append.mp hc with hc | hc
      · exact hdecl c hc
      · rw [List.mem_singleton.mp hc]
        exact ⟨by rfl, by decide⟩
    have hscan : scanEquals {} 0 none (p.declText ++ [' '] ++ '=' :: ' ' :: d.toList) =
        (some (p.declText.length + 1), {}) := by
      rw [scanEquals_append (topHas_flat hpre) 0, run_flat fun c hc => (hpre c hc).1, scanEquals,
        feed_flat (by rfl)]
      simp only [Option.isNone_none, and_self, if_true, List.length_append, List.length_singleton,
        Nat.zero_add]
      rw [scanEquals_found, Nesting.run, feed_flat (by rfl), hd.balanced]
    obtain ⟨hne, hhead, hlast⟩ := Parameter.declText_ends hp.ident
    have hblank : ∀ c ∈ [' '], isBlank c = true := List.forall_mem_singleton.mpr rfl
    have hdefault : trimChars ([' '] ++ d.toList ++ []) = d.toList :=
      trimChars_margins hblank (by simp) hdne hdhead hdlast
    have hdeclared : trimChars ([] ++ p.declText ++ [' ']) = p.declText :=
      trimChars_margins (by simp) hblank hne hhead hlast
    have htext : p.declText ++ ' ' :: '=' :: ' ' :: d.toList =
        p.declText ++ [' '] ++ '=' :: ' ' :: d.toList := by simp
    have htake : (p.declText ++ [' '] ++ '=' :: ' ' :: d.toList).take (p.declText.length + 1) =
        p.declText ++ [' '] := List.take_left' (by simp)
    have hdrop : (p.declText ++ [' '] ++ '=' :: ' ' :: d.toList).drop (p.declText.length + 1 + 1) =
        [' '] ++ d.toList := by
      rw [show p.declText.length + 1 + 1 = (p.declText ++ [' ']).length + 1 by simp,
        List.drop_length_add_append]
      rfl
    simp only [List.append_nil, List.nil_append] at hdefault hdeclared
    rw [htext]
    simp only [splitDefault, hscan, htake, hdrop, hdefault, hdeclared]
    simp [Nesting.isBalanced, hdne]

/-- A written parameter holds no `...`: neither its declaration, nor ` = `, nor its default
does. -/
theorem containsText_text_dots {p : Parameter} (hp : ReadsBack p) :
    containsText p.text "..." = false := by
  have hdecl : '.' ∉ p.declText := fun h =>
    ne_of_isSpellingChar (Parameter.declText_chars hp.ident _ h) (by rfl) rfl
  rw [Parameter.text_eq, containsText_append_of_not_mem rfl hdecl]
  cases hdv : p.defaultValue with
  | none => rfl
  | some d =>
    show containsText ([' ', '=', ' '] ++ d.toList) "..." = false
    rw [containsText_append_of_not_mem rfl (by decide), Bool.eq_false_iff]
    exact fun h => (hp.default d hdv).no_dots (containsText_eq_true_iff.mp h)

/-- Only `*` and `&` are set apart as tokens, so the tokens of a declaration are those of its
type's spelling and then its name. -/
theorem declTokens_declText {p : Parameter} (hp : isIdentifier p.name.toList = true) :
    declTokens p.declText = declTokens p.type.spelling.toList ++ [p.name.toList] := by
  have hname : (p.name.toList.flatMap fun c => if c = '*' ∨ c = '&' then [' ', c, ' '] else [c]) =
      p.name.toList := by
    conv_rhs => rw [← List.flatMap_singleton' p.name.toList]
    refine List.flatMap_congr fun c hc => if_neg ?_
    have hc := isIdentifier_chars hp c hc
    rintro (rfl | rfl)
    · exact hc.ne (by decide) (by decide) rfl
    · exact hc.ne (by decide) (by decide) rfl
  simp only [declTokens, Parameter.declText, List.flatMap_append, List.flatMap_cons]
  rw [hname, show (if ' ' = '*' ∨ ' ' = '&' then [' ', ' ', ' '] else [' ']) = [' '] by decide,
    List.singleton_append, wordsOf_append_blank (by rfl),
    wordsOf_eq_single (isIdentifier_ne_nil hp) fun c hc => (isIdentifier_chars hp c hc).isBlank_eq_false]

theorem nameCandidate_name {n : String} (hn : isIdentifier n.toList = true) :
    nameCandidate n.toList = some (n.toList, false) := by
  have hrest : n.toList.dropWhile (fun c => !decide (c = '[')) = [] :=
    List.dropWhile_eq_nil_iff.mpr fun c hc => by
      simp [(isIdentifier_chars hn c hc).ne (d := '[') (by decide) (by decide)]
  simp [nameCandidate, List.span_eq_takeWhile_dropWhile, hrest, hn]

theorem namesType_spelling (t : ValueType) : namesType (declTokens t.spelling.toList) = true := by
  cases t <;> rfl

theorem isBlankText_spelling (t : ValueType) :
    isBlankText (joinTokens (declTokens t.spelling.toList)) = false := by
  cases t <;> rfl

/-- The name of a written parameter is its last token, and the tokens before it name its
type. -/
theorem findName_declText {p : Parameter} (hp : ReadsBack p) :
    findName (declTokens p.declText).reverse =
      some (p.name.toList, declTokens p.type.spelling.toList, false) := by
  rw [declTokens_declText hp.ident, List.reverse_append, List.reverse_singleton,
    List.singleton_append, findName, nameCandidate_name hp.ident]
  simp [hp.not_reserved, namesType_spelling]

/-- A written parameter reads back as itself, wherever it stands in its list. -/
theorem readParameter_text {p : Parameter} (hp : ReadsBack p) (i : Nat) :
    readParameter p.text i = .ok p := by
  simp [readParameter, containsText_text_dots hp, splitDefault_text hp, findName_declText hp,
    isBlankText_spelling, resolveDeclared_spellingTokens, bind, Except.bind, pure, Except.pure]

/-! ## Reading the whole list -/

theorem paramsText_cons_cons (p q : Parameter) (qs : List Parameter) :
    paramsText (p :: q :: qs) = p.text ++ ',' :: ' ' :: paramsText (q :: qs) := by
  simp [paramsText, List.intercalate_cons_cons]

/-- A written non-empty list starts with its first parameter and ends with its last one, so
it has no blank margin. -/
theorem paramsText_ends {p : Parameter} {ps : List Parameter} (hps : ∀ q ∈ p :: ps, ReadsBack q) :
    paramsText (p :: ps) ≠ [] ∧ (∀ c, (paramsText (p :: ps)).head? = some c → isBlank c = false) ∧
      (∀ c, (paramsText (p :: ps)).getLast? = some c → isBlank c = false) := by
  induction ps generalizing p with
  | nil => simpa [paramsText] using Parameter.text_ends (hps p List.mem_cons_self)
  | cons q qs ih =>
    obtain ⟨hne, hhead, -⟩ := Parameter.text_ends (hps p List.mem_cons_self)
    obtain ⟨hne', -, hlast'⟩ := ih fun r hr => hps r (List.mem_cons_of_mem p hr)
    rw [paramsText_cons_cons]
    refine ⟨by simp [hne], fun c hc => hhead c ?_, fun c hc => hlast' c ?_⟩
    · rwa [List.head?_append_of_ne_nil _ hne] at hc
    · rw [List.getLast?_append, List.getLast?_cons_cons, List.getLast?_cons,
        List.getLast?_eq_some_getLast hne'] at hc
      simpa [List.getLast?_eq_some_getLast hne'] using hc

/-- A written parameter splits back out of a list. -/
theorem ReadsBack.splitsBack {p : Parameter} (hp : ReadsBack p) :
    SplitsBack (String.ofList p.text) := by
  obtain ⟨hne, hhead, hlast⟩ := Parameter.text_ends hp
  obtain ⟨hrun, htop⟩ := Parameter.scan_text hp
  refine ⟨fun h => hne (String.ofList_eq_empty_iff.mp h), ?_, by rwa [String.toList_ofList],
    by rwa [String.toList_ofList]⟩
  rw [trim, String.toList_ofList, trimChars_of_ends hne hhead hlast]

/-- A written list is its written parameters joined with `, `. -/
theorem ofList_paramsText (ps : List Parameter) :
    String.ofList (paramsText ps) = ", ".intercalate (ps.map fun q => String.ofList q.text) := by
  rw [← String.toList_inj, String.toList_ofList, String.toList_intercalate, List.map_map,
    paramsText]
  simp [Function.comp_def]

/-- Each piece of a written list is trimmed to one written parameter. -/
theorem splitList_paramsText {p : Parameter} {ps : List Parameter}
    (hps : ∀ q ∈ p :: ps, ReadsBack q) :
    splitList (String.ofList (paramsText (p :: ps))) = (p :: ps).map fun q => String.ofList q.text := by
  have hsplit : ∀ q ∈ String.ofList p.text :: ps.map fun q => String.ofList q.text,
      SplitsBack q :=
    List.forall_mem_cons.mpr ⟨(hps p List.mem_cons_self).splitsBack,
      List.forall_mem_map.mpr fun q hq => (hps q (List.mem_cons_of_mem p hq)).splitsBack⟩
  rw [ofList_paramsText, splitList, List.map_cons, piecesFrom_joined hsplit,
    filter_nonempty_map_toList hsplit, List.map_map]
  simp

/-- The pieces of a written list all read back, each as its parameter. -/
theorem readPieces_paramsText {ps : List Parameter} (hps : ∀ p ∈ ps, ReadsBack p) :
    (readPieces (String.ofList (paramsText ps))).map Prod.snd = ps.map .ok := by
  cases ps with
  | nil => rfl
  | cons p ps =>
    obtain ⟨hne, hhead, hlast⟩ := paramsText_ends hps
    have htrim : trim (String.ofList (paramsText (p :: ps))) = String.ofList (paramsText (p :: ps)) := by
      rw [trim, String.toList_ofList, trimChars_of_ends hne hhead hlast]
    -- the list holds the blank between a type and a name, and `void` holds none
    have hspace : ' ' ∈ paramsText (p :: ps) := by
      cases ps <;> simp [paramsText, Parameter.text, Parameter.declText]
    have hvoid : (String.ofList (paramsText (p :: ps)) == "void") = false := by
      rw [beq_eq_false_iff_ne]
      intro h
      have := congrArg String.toList h
      rw [String.toList_ofList] at this
      rw [this] at hspace
      simp at hspace
    have hempty : (String.ofList (paramsText (p :: ps))).isEmpty = false := by
      simp [hne]
    simp only [readPieces, htrim, hvoid, hempty, Bool.or_false, Bool.false_eq_true, if_false,
      splitList_paramsText hps, List.zipIdx_map, List.map_map]
    rw [show List.map Except.ok (p :: ps) = ((p :: ps).zipIdx.map Prod.fst).map Except.ok by
      rw [List.zipIdx_map_fst], List.map_map]
    refine List.map_congr_left fun x hx => ?_
    simp [readParameter_text (hps x.1 (List.fst_mem_of_mem_zipIdx hx))]

/-- Reading pieces that all read as parameters gives those parameters and no warning. -/
theorem readParameters_of_pieces {text function : String} {ps : List Parameter}
    (h : (readPieces text).map Prod.snd = ps.map .ok) :
    readParameters text function = (ps, []) := by
  unfold readParameters
  generalize readPieces text = pieces at h
  induction pieces generalizing ps with
  | nil => cases ps <;> simp_all
  | cons piece pieces ih =>
    cases ps with
    | nil => simp at h
    | cons p ps =>
      simp only [List.map_cons, List.cons.injEq] at h
      simp [gatherPiece, ih h.2, h.1]

/-- A parameter list written from parameters that a header can write reads back as those
parameters, in order, with no warning. -/
theorem readParameters_paramsText {ps : List Parameter} (hps : ∀ p ∈ ps, ParamOk p)
    (function : String) :
    readParameters (String.ofList (paramsText ps)) function = (ps, []) :=
  readParameters_of_pieces (readPieces_paramsText fun p hp => (hps p hp).readsBack)

/-- **Reading a parameter list inverts writing it.** Write each parameter as `TYPE NAME` or
`TYPE NAME = DEFAULT`, with its type's spelling, and join them with `, `. When every name is
an ASCII identifier and no reserved word, and every default is non-empty and trimmed, holds no
`...`, no comma at depth zero outside a literal, and closes every bracket and literal it opens,
the text reads back as exactly the parameters, in order, for every function name, and adds no
warning. -/
theorem readParameters_inverts_writing {ps : List Parameter} (hps : ∀ p ∈ ps, ReadsBack p)
    (function : String) :
    readParameters (String.ofList (paramsText ps)) function = (ps, []) :=
  readParameters_of_pieces (readPieces_paramsText hps)

/-- Defaults that nest: a string literal and a template holding commas, a call holding a comma
and an `=` after it. -/
def nestedParams : List Parameter :=
  [{ name := "label", type := .charPtr, defaultValue := some "\"a, b\"" },
    { name := "span", type := .unsignedLong, defaultValue := some "max(1, f(2)) = x" },
    { name := "items", type := .any, defaultValue := some "std::vector<int, A>()" },
    { name := "ch", type := .char }]

theorem nestedParams_readBack : ∀ p ∈ nestedParams, ReadsBack p := by
  decide

theorem readParameters_inverts_writing_nested :
    (∀ p ∈ nestedParams, ReadsBack p) ∧
      readParameters (String.ofList (paramsText nestedParams)) "draw" = (nestedParams, []) :=
  ⟨nestedParams_readBack, readParameters_inverts_writing nestedParams_readBack "draw"⟩

end Breadboard.Header
