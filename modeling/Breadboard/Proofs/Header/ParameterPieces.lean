import Mathlib
import Breadboard.Header.Parameter
import Breadboard.Proofs.Text.Scan
/-!
# Every piece of a parameter list is accounted for

A parameter list is split at its top-level commas into trimmed pieces, the empty ones
dropped, and each piece is read on its own: it is refused for a `...`, for brackets or a
literal left open, for an `=` with nothing after it, or for a missing type, and otherwise
gives one parameter. The reader drops a refused piece and reports it, so the parameters and
the warnings of a list, merged in order, are the pieces' outcomes one to one.

* `readParameter_ok`: what a piece gives when it is read;
* `readParameter_readAt`: its name is an identifier that is no reserved word, or `arg` and the
  piece's position among all pieces, and its default is non-empty and trimmed (`ReadAt`);
* `readParameters_eq_outcomes`: the parameters and warnings are the outcomes of the pieces;
* `readParameters_accounts_for_every_piece`: the main statement.
-/

namespace Breadboard.Header

open Text

/-! ## Names and defaults -/

/-- A piece names its parameter by an identifier only when that identifier is a name
candidate. -/
theorem nameCandidate_isIdentifier {t ident : List Char} {isArray : Bool}
    (h : nameCandidate t = some (ident, isArray)) : isIdentifier ident = true := by
  obtain ⟨pre, bracket, hspan⟩ : ∃ a b, t.span (· ≠ '[') = (a, b) := ⟨_, _, rfl⟩
  simp only [nameCandidate, hspan] at h
  split_ifs at h with hbracket hident hclosed
  · cases h
    exact hident
  · cases h
    exact hclosed.2

/-- The name found among the tokens of a declaration is an identifier and no reserved
word. -/
theorem findName_name {ts : List (List Char)} {ident : List Char} {before : List (List Char)}
    {isArray : Bool} (h : findName ts = some (ident, before, isArray)) :
    isIdentifier ident = true ∧ String.ofList ident ∉ reservedWords := by
  induction ts with
  | nil => simp [findName] at h
  | cons t ts ih =>
    cases hc : nameCandidate t with
    | none =>
      rw [findName, hc] at h
      exact ih h
    | some candidate =>
      obtain ⟨ident', isArray'⟩ := candidate
      rw [findName, hc] at h
      dsimp only at h
      -- a reserved candidate, or one with no type before it, is passed over
      split_ifs at h with hskip
      · exact ih h
      · cases h
        simp only [Bool.or_eq_true, not_or] at hskip
        exact ⟨nameCandidate_isIdentifier hc, fun hm => hskip.1 (List.contains_iff_mem.mpr hm)⟩

/-- A default value that a piece is split into is not empty and has no blank margin. -/
theorem splitDefault_default {part decl d : List Char}
    (h : splitDefault part = .ok (decl, some d)) : d ≠ [] ∧ trimChars d = d := by
  obtain ⟨found, st, hscan⟩ : ∃ f s, scanEquals {} 0 none part = (f, s) := ⟨_, _, rfl⟩
  simp only [splitDefault, hscan] at h
  split_ifs at h with hbal
  cases found with
  | none => cases h
  | some i =>
    simp only at h
    split_ifs at h with hempty
    cases h
    exact ⟨by simpa using hempty, trimChars_trimChars _⟩

/-- What reading a piece gives when it succeeds: the default found by `splitDefault`, and the
name found among the tokens of the declaration, or `arg` and the piece's position. -/
theorem readParameter_ok {part : List Char} {i : Nat} {p : Parameter}
    (h : readParameter part i = .ok p) :
    ∃ decl dv, splitDefault part = .ok (decl, dv) ∧ p.defaultValue = dv.map String.ofList ∧
      ((∃ ident before isArray,
          findName (declTokens decl).reverse = some (ident, before, isArray) ∧
          p.name = String.ofList ident) ∨
        p.name = "arg" ++ toString i) := by
  have hdots : containsText part "..." = false := by
    by_contra hdots
    rw [Bool.not_eq_false] at hdots
    simp [readParameter, hdots, bind, Except.bind, throw, throwThe, MonadExceptOf.throw] at h
  cases hsplit : splitDefault part with
  | error e => simp [readParameter, hdots, hsplit, bind, Except.bind] at h
  | ok r =>
    obtain ⟨decl, dv⟩ := r
    cases hname : findName (declTokens decl).reverse with
    | none =>
      simp only [readParameter, hdots, hsplit, hname, bind, Except.bind, throw, throwThe,
        MonadExceptOf.throw, pure, Except.pure, Bool.false_eq_true, if_false] at h
      -- a blank type is refused, so the parameter is the one built
      obtain ⟨-, h⟩ | ⟨-, h⟩ := ite_eq_iff.mp h
      · cases h
      · cases h
        exact ⟨decl, dv, rfl, rfl, .inr rfl⟩
    | some x =>
      obtain ⟨ident, before, isArray⟩ := x
      simp only [readParameter, hdots, hsplit, hname, bind, Except.bind, throw, throwThe,
        MonadExceptOf.throw, pure, Except.pure, Bool.false_eq_true, if_false] at h
      obtain ⟨-, h⟩ | ⟨-, h⟩ := ite_eq_iff.mp h
      · cases h
      · cases h
        exact ⟨decl, dv, rfl, rfl, .inl ⟨ident, before, isArray, hname, rfl⟩⟩

/-! ## What one piece yields -/

/-- A parameter read from the piece at position `i` of its list: it is named by an ASCII
identifier that is no reserved word, or by `arg` and `i`, and its default, if any, is not
empty and has no blank margin. -/
structure ReadAt (p : Parameter) (i : Nat) : Prop where
  name : isIdentifier p.name.toList = true ∧ p.name ∉ reservedWords ∨
    p.name = "arg" ++ toString i
  default : ∀ d ∈ p.defaultValue, d ≠ "" ∧ trim d = d

/-- What a piece of a parameter list, with its position, may yield for `function`: a
parameter read at that position, or a warning that names the function and the piece. -/
def PieceYield (function : String) (piece : String × Nat) : Parameter ⊕ Warning → Prop
  | .inl p => ReadAt p piece.2
  | .inr w => ∃ fault, w = .malformedParameter function piece.1 fault

/-- A parameter read from a piece is named by an identifier of its declaration or by its
position, and its default is the trimmed text after the first top-level `=`. -/
theorem readParameter_readAt {part : List Char} {i : Nat} {p : Parameter}
    (h : readParameter part i = .ok p) : ReadAt p i := by
  obtain ⟨decl, dv, hsplit, hdv, hname⟩ := readParameter_ok h
  constructor
  · rcases hname with ⟨ident, before, isArray, hfind, hn⟩ | hn
    · rw [hn, String.toList_ofList]
      exact .inl (findName_name hfind)
    · exact .inr hn
  · intro d hd
    rw [hdv] at hd
    obtain ⟨d', rfl, rfl⟩ := Option.mem_map.mp hd
    obtain ⟨hne, htrim⟩ := splitDefault_default hsplit
    refine ⟨fun h => hne (String.ofList_eq_empty_iff.mp h), ?_⟩
    rw [trim, String.toList_ofList, htrim]

/-- A piece and what reading it gave, as a parameter or a warning for `function`. -/
def pieceOutcome (function : String) (piece : String × Except ParamFault Parameter) :
    Parameter ⊕ Warning :=
  match piece.2 with
  | .ok p => .inl p
  | .error fault => .inr (.malformedParameter function piece.1 fault)

/-- The parameters and warnings of a list are the outcomes of its pieces, in order. -/
theorem readParameters_eq_outcomes (text function : String) :
    readParameters text function =
      (((readPieces text).map (pieceOutcome function)).filterMap Sum.getLeft?,
        ((readPieces text).map (pieceOutcome function)).filterMap Sum.getRight?) := by
  simp only [readParameters]
  generalize readPieces text = pieces
  induction pieces with
  | nil => rfl
  | cons piece pieces ih =>
    obtain ⟨part, outcome⟩ := piece
    cases outcome <;>
      simp only [List.foldr_cons, ih, gatherPiece, List.map_cons, pieceOutcome, List.filterMap_cons,
        Sum.getLeft?_inl, Sum.getLeft?_inr, Sum.getRight?_inl, Sum.getRight?_inr]

/-- **Every piece of a parameter list is accounted for exactly once.** A list that trims to
nothing or to `void` gives no parameter and no warning. Otherwise its pieces (split at the
top-level commas, trimmed, the empty ones dropped) and what the reader gives correspond one
to one, in order: piece `i` yields one parameter, named by an ASCII identifier that is no
reserved word or by `arg` and `i`, with a non-empty trimmed default if any, or one warning
that names the function and the piece. -/
theorem readParameters_accounts_for_every_piece (text function : String) :
    (trim text = "" ∨ trim text = "void" → readParameters text function = ([], [])) ∧
    (trim text ≠ "" → trim text ≠ "void" →
      ∃ outs : List (Parameter ⊕ Warning),
        List.Forall₂ (PieceYield function) (splitList (trim text)).zipIdx outs ∧
        readParameters text function =
          (outs.filterMap Sum.getLeft?, outs.filterMap Sum.getRight?)) := by
  refine ⟨fun hskip => ?_, fun hne hvoid => ?_⟩
  · have hnone : readPieces text = [] := by
      rcases hskip with h | h <;> simp [readPieces, h]
    rw [readParameters_eq_outcomes, hnone]
    rfl
  · have hpieces : readPieces text = (splitList (trim text)).zipIdx.map
        fun piece => (piece.1, readParameter piece.1.toList piece.2) := by
      simp [readPieces, hne, hvoid]
    refine ⟨_, ?_, readParameters_eq_outcomes text function⟩
    rw [hpieces, List.map_map, List.forall₂_map_right_iff, List.forall₂_same]
    rintro ⟨part, i⟩ -
    simp only [Function.comp, pieceOutcome]
    cases hread : readParameter part.toList i with
    | ok p => exact readParameter_readAt hread
    | error fault => exact ⟨fault, rfl⟩

/-- A list that is only `void`, and a list with a variadic piece between a named parameter and
a bare type. -/
theorem readParameters_accounts_for_every_piece_mixed :
    (trim " void " = "" ∨ trim " void " = "void") ∧ readParameters " void " "f" = ([], []) ∧
    trim "int a = 1, ..., float" ≠ "" ∧ trim "int a = 1, ..., float" ≠ "void" ∧
      ∃ outs : List (Parameter ⊕ Warning),
        List.Forall₂ (PieceYield "f") (splitList (trim "int a = 1, ..., float")).zipIdx outs ∧
        readParameters "int a = 1, ..., float" "f" =
          (outs.filterMap Sum.getLeft?, outs.filterMap Sum.getRight?) := by
  have hskip : trim " void " = "" ∨ trim " void " = "void" := .inr (by decide)
  have hne : trim "int a = 1, ..., float" ≠ "" := by decide
  have hvoid : trim "int a = 1, ..., float" ≠ "void" := by decide
  exact ⟨hskip, (readParameters_accounts_for_every_piece " void " "f").1 hskip, hne, hvoid,
    (readParameters_accounts_for_every_piece "int a = 1, ..., float" "f").2 hne hvoid⟩

end Breadboard.Header
