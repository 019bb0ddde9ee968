import Breadboard.Json.Read
import Breadboard.Json.Shape
/-!
# Reading JSON text into values of a given shape

Decoders read a value of an expected shape straight from the text, failing at the first
thing that does not fit: a syntax error, or a value of the wrong shape, whichever comes
first in the text. Each decoder is told how many more levels of arrays and objects may
open (128 at the top), and a deeper text is refused.

* `string`, `bool` and `option` read scalars; `null` is the absent option.
* `list` reads an array of items.
* `record` reads a record from an object (members in any order, unknown members skipped
  after checking their form, a repeated member refused, a missing required member
  refused after the object closes) or from an array (fields in order, a missing required
  field refused).
* `variant` reads one of a list of names, as a string or as a one-member object
  `{"name": null}`.
* `value` reads any JSON value.

A shape's reader (`Shape.decoder`) is made of these, and the text layer that runs
(`serdeJson`) writes with `Value.pretty` and `Value.compact` and reads with `decodeText`.

An error that a value has the wrong shape is placed where reading of the value holding
it stopped; the closing bracket of an array or object is still read first.
-/

namespace Breadboard.Json

open ReadM

/-- Reads a value of type `α`, given how many more levels of nesting may open. -/
def Decoder (α : Type) : Type := Nat → ReadM α

/-- Reads a number from the current offset, after its sign. -/
def number (positive : Bool) : ReadM Number :=
  ofFunction fun b p => numberFrom b p positive

/-- A number as an unexpected value. -/
def Number.unexpected : Number → Unexpected
  | .nat n => .unsigned n
  | .neg n => .signed n
  | .float x => .float x

/-- Reads the value at the current offset as far as needed to say what it is, and fails
because `expected` was wanted instead. An array or object is not entered. -/
def mismatch {α : Type} (expected : String) : ReadM α := do
  let found ← (match ← peek with
    | some 0x6E => do eat; keyword "ull"; pure (some Unexpected.null)
    | some 0x74 => do eat; keyword "rue"; pure (some (Unexpected.bool true))
    | some 0x66 => do eat; keyword "alse"; pure (some (Unexpected.bool false))
    | some 0x2D => do eat; let n ← number false; pure (some n.unexpected)
    | some 0x22 => do eat; let s ← readString; pure (some (Unexpected.string s))
    | some 0x5B => pure (some Unexpected.seq)
    | some 0x7B => pure (some Unexpected.map)
    | some c =>
      if isDigit c then do let n ← number true; pure (some n.unexpected) else pure none
    | none => pure none : ReadM (Option Unexpected))
  match found with
  | some u => failHere (.invalidType u expected)
  | none => failNext .expectedSomeValue

/-- Reads a string. -/
def string : Decoder String := fun _ => placed do
  match ← skipBlank with
  | none => failNext .eofWhileParsingValue
  | some 0x22 => eat; readString
  | some _ => mismatch "a string"

/-- Reads `true` or `false`. -/
def bool : Decoder Bool := fun _ => placed do
  match ← skipBlank with
  | none => failNext .eofWhileParsingValue
  | some 0x74 => eat; keyword "rue"; pure true
  | some 0x66 => eat; keyword "alse"; pure false
  | some _ => mismatch "a boolean"

/-- Reads `null` as `none`, and anything else with `d`. -/
def option {α : Type} (d : Decoder α) : Decoder (Option α) := fun depth => do
  match ← skipBlank with
  | some 0x6E => eat; keyword "ull"; pure none
  | _ => some <$> d depth

/-- Reads the next item of an array with `d`, or `none` at its end. -/
def element {α : Type} (d : ReadM α) (first : Bool) : ReadM (Option α) := do
  let peeked ← (match ← skipBlank with
    | some 0x5D => pure none
    | some 0x2C => if first then pure (some (some 0x2C)) else do eat; some <$> skipBlank
    | some c => if first then pure (some (some c)) else failNext .expectedListCommaOrEnd
    | none => failNext .eofWhileParsingList : ReadM (Option (Option UInt8)))
  match peeked with
  | none => pure none
  | some (some 0x5D) => failNext .trailingComma
  | some (some _) => some <$> d
  | some none => failNext .eofWhileParsingValue

/-- Reads the closing bracket of an array. -/
def closeArray : ReadM Unit := do
  match ← skipBlank with
  | some 0x5D => eat
  | some 0x2C =>
    eat
    match ← skipBlank with
    | some 0x5D => failNext .trailingComma
    | _ => failNext .trailingCharacters
  | some _ => failNext .trailingCharacters
  | none => failNext .eofWhileParsingList

/-- Reads the next key of an object, or `none` at its end. -/
def key (first : Bool) : ReadM (Option String) := do
  let peeked ← (match ← skipBlank with
    | some 0x7D => pure none
    | some 0x2C => if first then pure (some (some 0x2C)) else do eat; some <$> skipBlank
    | some c => if first then pure (some (some c)) else failNext .expectedObjectCommaOrEnd
    | none => failNext .eofWhileParsingObject : ReadM (Option (Option UInt8)))
  match peeked with
  | none => pure none
  | some (some 0x22) => do eat; some <$> readString
  | some (some 0x7D) => failNext .trailingComma
  | some (some _) => failNext .keyMustBeAString
  | some none => failNext .eofWhileParsingValue

/-- Reads the `:` after a key. -/
def colon : ReadM Unit := do
  match ← skipBlank with
  | some 0x3A => eat
  | some _ => failNext .expectedColon
  | none => failNext .eofWhileParsingObject

/-- Reads the closing brace of an object. -/
def closeObject : ReadM Unit := do
  match ← skipBlank with
  | some 0x7D => eat
  | some 0x2C => failNext .trailingComma
  | some _ => failNext .trailingCharacters
  | none => failNext .eofWhileParsingObject

/-- Reads an array or object whose opening bracket is next: its inside, then its closing
bracket. A failure inside wins over one at the closing bracket, which is read either
way. `depth` levels may still open. -/
def container {α : Type} (depth : Nat) (inside : ReadM α) (close : ReadM Unit) : ReadM α := do
  if depth ≤ 1 then failNext .recursionLimitExceeded
  eat
  let r ← attempt inside
  let c ← attempt close
  match r, c with
  | .ok a, .ok () => pure a
  | .error e, _ => fail e
  | .ok _, .error e => fail e

/-- Reads an array of items. -/
def list {α : Type} (d : Decoder α) : Decoder (List α) := fun depth => placed do
  match ← skipBlank with
  | none => failNext .eofWhileParsingValue
  | some 0x5B => container depth (collect (element (d (depth - 1)))) closeArray
  | some _ => mismatch "a sequence"

/-! ### Skipping a value -/

/-- Where the skipping of a value stands. -/
inductive SkipMode where
  /-- A value starts next. -/
  | value
  /-- After an item inside the innermost open bracket `frame`; `acceptComma` when an item
  has been read. -/
  | after (acceptComma : Bool) (frame : UInt8)
  /-- Before the next item of `frame`: for an object, its key and colon. -/
  | item (frame : UInt8)

/-- Skips values and brackets from offset `p` in mode `mode`, with `stack` the brackets open
around the innermost one; `fuel` bounds the steps. -/
def skipSteps (b : ByteArray) : Nat → SkipMode → List UInt8 → Nat → Except Fault Nat
  | 0, _, _, _ => .error (.placedAt .eofWhileParsingValue b.size)
  | fuel + 1, .value, stack, p =>
    let q := blankEnd b p
    let closeScalar := fun (r : Except Fault Nat) => r.bind fun p' =>
      match stack with
      | [] => .ok p'
      | f :: rest => skipSteps b fuel (.after true f) rest p'
    match b[q]? with
    | none => .error (.placedAt .eofWhileParsingValue (min b.size (q + 1)))
    | some c =>
      if c == 0x6E then closeScalar (keywordFrom b (q + 1) "ull".toUTF8.toList)
      else if c == 0x74 then closeScalar (keywordFrom b (q + 1) "rue".toUTF8.toList)
      else if c == 0x66 then closeScalar (keywordFrom b (q + 1) "alse".toUTF8.toList)
      else if c == 0x2D then closeScalar (skipNumberFrom b (q + 1))
      else if isDigit c then closeScalar (skipNumberFrom b q)
      else if c == 0x22 then closeScalar (skipStringFrom b (q + 1))
      else if c == 0x5B || c == 0x7B then skipSteps b fuel (.after false c) stack (q + 1)
      else .error (.placedAt .expectedSomeValue (min b.size (q + 1)))
  | fuel + 1, .after acceptComma frame, stack, p =>
    let q := blankEnd b p
    match b[q]? with
    | none =>
      .error (.placedAt (if frame == 0x5B then .eofWhileParsingList else .eofWhileParsingObject)
        (min b.size (q + 1)))
    | some c =>
      if c == 0x2C && acceptComma then skipSteps b fuel (.item frame) stack (q + 1)
      else if (c == 0x5D && frame == 0x5B) || (c == 0x7D && frame == 0x7B) then
        match stack with
        | [] => .ok (q + 1)
        | f :: rest => skipSteps b fuel (.after true f) rest (q + 1)
      else if acceptComma then
        .error (.placedAt
          (if frame == 0x5B then .expectedListCommaOrEnd else .expectedObjectCommaOrEnd)
          (min b.size (q + 1)))
      else skipSteps b fuel (.item frame) stack q
  | fuel + 1, .item frame, stack, p =>
    if frame == 0x7B then
      let q := blankEnd b p
      match b[q]? with
      | some 0x22 =>
        match skipStringFrom b (q + 1) with
        | .ok r =>
          let q2 := blankEnd b r
          match b[q2]? with
          | some 0x3A => skipSteps b fuel .value (frame :: stack) (q2 + 1)
          | some _ => .error (.placedAt .expectedColon (min b.size (q2 + 1)))
          | none => .error (.placedAt .eofWhileParsingObject (min b.size (q2 + 1)))
        | .error e => .error e
      | some _ => .error (.placedAt .keyMustBeAString (min b.size (q + 1)))
      | none => .error (.placedAt .eofWhileParsingObject (min b.size (q + 1)))
    else skipSteps b fuel .value (frame :: stack) p

/-- Skips one value, checking only its form. -/
def skipValue : ReadM Unit :=
  ofFunction fun b p => (skipSteps b (4 * b.size + 4) .value [] p).map fun q => ((), q)

/-! ### Records -/

/-- One field of a record: the keys it answers to (the first is its name in messages),
whether it must be present, whether a draft has it, and how its value is read into a
draft. -/
structure FieldForm (δ : Type) where
  names : List String
  required : Bool
  isSet : δ → Bool
  read : Nat → δ → ReadM δ

/-- The shape of a record: its name, its fields in order, the draft before any field is
read, and the record a complete draft stands for. -/
structure RecordForm (δ α : Type) where
  name : String
  fields : List (FieldForm δ)
  empty : δ
  finish : δ → α

namespace RecordForm

variable {δ α : Type}

/-- Reads one member of the record's object into the draft, or answers `none` at the end
of the object. -/
def member (form : RecordForm δ α) (depth : Nat) (first : Bool) (d : δ) : ReadM (Option δ) := do
  match ← key first with
  | none => pure none
  | some k =>
    match form.fields.find? (·.names.contains k) with
    | some f =>
      if f.isSet d then raise (.duplicateField (f.names.headD ""))
      colon
      some <$> f.read depth d
    | none =>
      colon
      skipValue
      pure (some d)

/-- Reads the members of the record's object. -/
def ofMembers (form : RecordForm δ α) (depth : Nat) : ReadM α := do
  let d ← iterate (form.member depth) form.empty
  match form.fields.find? (fun f => f.required && !f.isSet d) with
  | some f => raise (.missingField (f.names.headD ""))
  | none => pure (form.finish d)

/-- Reads the fields in order from the items of an array; `index` counts the fields. -/
def itemsFrom (form : RecordForm δ α) (depth : Nat) (first : Bool) (index : Nat) (d : δ) :
    List (FieldForm δ) → ReadM δ
  | [] => pure d
  | f :: rest => do
    match ← element (f.read depth d) first with
    | some d' => form.itemsFrom depth false (index + 1) d' rest
    | none =>
      if f.required then
        raise (.invalidLength index
          ("struct " ++ form.name ++ " with " ++ natText form.fields.length ++ " elements"))
      else form.itemsFrom depth first (index + 1) d rest

end RecordForm

/-- Reads a record, from an object or an array. -/
def record {δ α : Type} (form : RecordForm δ α) : Decoder α := fun depth => placed do
  match ← skipBlank with
  | none => failNext .eofWhileParsingValue
  | some 0x5B =>
    container depth (form.finish <$> form.itemsFrom (depth - 1) true 0 form.empty form.fields)
      closeArray
  | some 0x7B => container depth (form.ofMembers (depth - 1)) closeObject
  | some _ => mismatch ("struct " ++ form.name)

/-- A field read with a decoder into a draft, through its getter and setter. -/
def field {δ β : Type} (names : List String) (required : Bool) (get : δ → Option β)
    (set : δ → β → δ) (d : Decoder β) : FieldForm δ :=
  { names, required, isSet := fun x => (get x).isSome,
    read := fun depth x => set x <$> d depth }

/-! ### Enumerations and any value -/

/-- Reads a name of an enumeration, as a string. -/
def variantName {α : Type} (variants : List (String × α)) (expected : String) : ReadM α :=
  placed do
    match ← skipBlank with
    | none => failNext .eofWhileParsingValue
    | some 0x22 =>
      eat
      let s ← readString
      match variants.lookup s with
      | some v => pure v
      | none => raise (.unknownVariant s (variants.map (·.1)))
    | some _ => mismatch expected

/-- Reads the name of an enumeration written as the only key of an object. The key is read as
the first key of any object: an object with no key at all is missing its value, and a key
that is not a string is refused before any name is looked up. -/
def variantKey {α : Type} (variants : List (String × α)) : ReadM α := do
  match ← key true with
  | some s =>
    placed (match variants.lookup s with
      | some v => pure v
      | none => raise (.unknownVariant s (variants.map (·.1))))
  | none => failNext .expectedSomeValue

/-- Reads one of the given names of an enumeration: a string, or an object with the name as
its only key and `null` as its value. -/
def variant {α : Type} (variants : List (String × α)) : Decoder α := fun depth => do
  match ← skipBlank with
  | some 0x22 => variantName variants "variant identifier"
  | some 0x7B =>
    if depth ≤ 1 then failNext .recursionLimitExceeded
    eat
    let v ← variantKey variants
    colon
    placed do
      match ← skipBlank with
      | none => failNext .eofWhileParsingValue
      | some 0x6E => eat; keyword "ull"
      | some _ => mismatch "unit"
    match ← skipBlank with
    | some 0x7D => eat; pure v
    | some _ => failHere .expectedSomeValue
    | none => failHere .eofWhileParsingObject
  | some _ => failNext .expectedSomeValue
  | none => failNext .eofWhileParsingValue

/-- Reads the members of an object with `v`, keeping them sorted by key, a later member
replacing an earlier one with the same key. -/
def objectMembers (v : ReadM Value) : ReadM (List (String × Value)) :=
  iterate (fun first acc => do
    match ← key first with
    | none => pure none
    | some k =>
      colon
      let x ← v
      pure (some (insertMember k x acc))) []

/-- Reads any JSON value, when `depth` levels may still open. -/
def value : Decoder Value
  | 0 => failNext .recursionLimitExceeded
  | depth + 1 => placed do
    match ← skipBlank with
    | none => failNext .eofWhileParsingValue
    | some 0x6E => eat; keyword "ull"; pure .null
    | some 0x74 => eat; keyword "rue"; pure (.bool true)
    | some 0x66 => eat; keyword "alse"; pure (.bool false)
    | some 0x2D => eat; .num <$> number false
    | some 0x22 => eat; .str <$> readString
    | some 0x5B => container (depth + 1) (.arr <$> collect (element (value depth))) closeArray
    | some 0x7B => container (depth + 1) (.obj <$> objectMembers (value depth)) closeObject
    | some c => if isDigit c then .num <$> number true else failNext .expectedSomeValue

/-- Reads a whole text as one value of the decoder's shape, with nothing but blanks after
it. -/
def decodeText {α : Type} (d : Decoder α) (text : String) : Except Error α :=
  let bytes := text.toUTF8
  let whole : ReadM α := do
    let a ← d 128
    match ← skipBlank with
    | some _ => failNext .trailingCharacters
    | none => pure a
  match whole bytes 0 with
  | (.ok a, _) => .ok a
  | (.error (.placedAt code i), _) =>
    let (line, column) := position bytes i
    .error ⟨code, line, column⟩
  | (.error (.pending code), p) =>
    let (line, column) := position bytes p
    .error ⟨code, line, column⟩

/-! ### Readers of shapes -/

mutual

/-- The reader of a shape. -/
def Shape.decoder : {α : Type} → Shape α → Decoder α
  | _, .string => string
  | _, .bool => bool
  | _, .option s => option s.decoder
  | _, .list s => list s.decoder
  | _, .variant names => variant names
  | _, .record name fields empty finish => record ⟨name, fields.forms, empty, finish⟩
  | _, .value => value

/-- The fields of a record form. -/
def Fields.forms : {δ : Type} → Fields δ → List (FieldForm δ)
  | _, .nil => []
  | _, .cons names required get set s rest => field names required get set s.decoder :: rest.forms

end

/-- The JSON text layer that runs: pretty text at level 0, compact text, and a whole text read by
the reader of the shape. -/
def serdeJson : JsonText where
  Error := Error
  message := Error.message
  pretty v := v.pretty 0
  compact := Value.compact
  decode s text := decodeText s.decoder text

end Breadboard.Json
