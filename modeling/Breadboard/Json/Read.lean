import Breadboard.Json.Error
/-!
# Reading JSON text: bytes, strings and numbers

The lowest layer of the JSON reader works on the UTF-8 bytes of a text. A reading step
`ReadM` goes from a byte offset to a result and the offset where reading stopped; the
offset after a failure matters, because a shape error is placed where the reading of the
enclosing value stopped (`Fault.pending`, placed by `placed`).

Blanks between tokens are space, tab, newline and carriage return. Strings may hold any
character but the controls below `0x20`, which must be escaped; `\uXXXX` escapes of
surrogates must pair up. Numbers follow the JSON grammar: a whole number that fits in 64
bits stays whole, every other number becomes the double nearest to its decimal value as
computed by scaling the significand by a power of ten, and a number too large for a
double is an error.
-/

namespace Breadboard.Json

/-- A failure while reading: an error at a byte offset, or a shape error still to be
placed. -/
inductive Fault where
  | placedAt (code : ErrorCode) (index : Nat)
  | pending (code : ErrorCode)

/-- A reading step over a fixed input: from a byte offset to a result and the offset after
it. -/
def ReadM (α : Type) : Type := ByteArray → Nat → Except Fault α × Nat

instance : Monad ReadM where
  pure a := fun _ p => (.ok a, p)
  bind m f := fun b p =>
    match m b p with
    | (.ok a, p') => f a b p'
    | (.error e, p') => (.error e, p')

namespace ReadM

/-- Fails with `e`. -/
def fail {α : Type} (e : Fault) : ReadM α := fun _ p => (.error e, p)

/-- Runs a step and returns its outcome, failure included, without failing. -/
def attempt {α : Type} (m : ReadM α) : ReadM (Except Fault α) := fun b p =>
  let (r, p') := m b p
  (.ok r, p')

/-- The current byte offset. -/
def offset : ReadM Nat := fun _ p => (.ok p, p)

/-- The byte at the current offset, if any. -/
def peek : ReadM (Option UInt8) := fun b p => (.ok b[p]?, p)

/-- Moves past one byte. -/
def eat : ReadM Unit := fun _ p => (.ok (), p + 1)

/-- The byte at the current offset, moving past it. -/
def next : ReadM (Option UInt8) := fun b p =>
  match b[p]? with
  | some c => (.ok (some c), p + 1)
  | none => (.ok none, p)

/-- Fails with an error at the current offset. -/
def failHere {α : Type} (code : ErrorCode) : ReadM α := fun _ p => (.error (.placedAt code p), p)

/-- Fails with an error just past the current byte (at the end of the text at most). -/
def failNext {α : Type} (code : ErrorCode) : ReadM α := fun b p =>
  (.error (.placedAt code (min b.size (p + 1))), p)

/-- Fails with a shape error, placed later. -/
def raise {α : Type} (code : ErrorCode) : ReadM α := fail (.pending code)

/-- Places a pending shape error of `m` at the offset where `m` stopped. -/
def placed {α : Type} (m : ReadM α) : ReadM α := fun b p =>
  match m b p with
  | (.error (.pending code), p') => (.error (.placedAt code p'), p')
  | r => r

/-- Lifts a reading function on the bytes. -/
def ofFunction {α : Type} (f : ByteArray → Nat → Except Fault (α × Nat)) : ReadM α :=
  fun b p =>
    match f b p with
    | .ok (a, p') => (.ok a, p')
    | .error e => (.error e, p)

/-- Runs `step` until it answers `none`, collecting its answers in order. `step` is told
whether it is the first round. A round that answers without moving forward ends the
loop, so the loop always ends. -/
def collect {α : Type} (step : Bool → ReadM (Option α)) : ReadM (List α) := fun b p =>
  go b true [] p
where
  /-- One round from offset `p`. -/
  go (b : ByteArray) (first : Bool) (acc : List α) (p : Nat) : Except Fault (List α) × Nat :=
    match step first b p with
    | (.ok (some a), p') =>
      if _h : p < p' ∧ p < b.size then go b false (a :: acc) p' else (.ok (a :: acc).reverse, p')
    | (.ok none, p') => (.ok acc.reverse, p')
    | (.error e, p') => (.error e, p')
  termination_by b.size - p

/-- Runs `step` on a state until it answers `none`; `step` is told whether it is the first
round. A round that answers without moving forward ends the loop, so the loop always
ends. -/
def iterate {σ : Type} (step : Bool → σ → ReadM (Option σ)) (init : σ) : ReadM σ :=
  fun b p => go b true init p
where
  /-- One round from offset `p`. -/
  go (b : ByteArray) (first : Bool) (s : σ) (p : Nat) : Except Fault σ × Nat :=
    match step first s b p with
    | (.ok (some s'), p') =>
      if _h : p < p' ∧ p < b.size then go b false s' p' else (.ok s', p')
    | (.ok none, p') => (.ok s, p')
    | (.error e, p') => (.error e, p')
  termination_by b.size - p

end ReadM

open ReadM

/-- The offset of the first byte at or after `p` that is not a blank. -/
def blankEnd (b : ByteArray) (p : Nat) : Nat :=
  if h : p < b.size then
    let c := b[p]
    if c == 0x20 || c == 0x0A || c == 0x09 || c == 0x0D then blankEnd b (p + 1) else p
  else p
termination_by b.size - p

/-- Skips blanks and looks at the next byte. -/
def skipBlank : ReadM (Option UInt8) := fun b p =>
  let q := blankEnd b p
  (.ok b[q]?, q)

/-- Reads the rest of a keyword from offset `p`, byte by byte: the offset after it. -/
def keywordFrom (b : ByteArray) (p : Nat) : List UInt8 → Except Fault Nat
  | [] => .ok p
  | c :: more =>
    match b[p]? with
    | none => .error (.placedAt .eofWhileParsingValue p)
    | some d =>
      if d == c then keywordFrom b (p + 1) more else .error (.placedAt .expectedSomeIdent (p + 1))

/-- Reads the rest of a keyword. -/
def keyword (rest : String) : ReadM Unit :=
  ofFunction fun b p => (keywordFrom b p rest.toUTF8.toList).map fun q => ((), q)

/-! ### Strings -/

/-- The value of a hex digit. -/
def hexValue (c : UInt8) : Option Nat :=
  if 0x30 ≤ c ∧ c ≤ 0x39 then some (c.toNat - 0x30)
  else if 0x61 ≤ c ∧ c ≤ 0x66 then some (c.toNat - 0x61 + 10)
  else if 0x41 ≤ c ∧ c ≤ 0x46 then some (c.toNat - 0x41 + 10)
  else none

/-- Four hex digits at offset `p`: their value, read past them. -/
def hex4 (b : ByteArray) (p : Nat) : Except Fault Nat :=
  if p + 4 ≤ b.size then
    match hexValue b[p]!, hexValue b[p + 1]!, hexValue b[p + 2]!, hexValue b[p + 3]! with
    | some w, some x, some y, some z => .ok (((w * 16 + x) * 16 + y) * 16 + z)
    | _, _, _, _ => .error (.placedAt .invalidEscape (p + 4))
  else .error (.placedAt .eofWhileParsingString b.size)

/-- The UTF-8 bytes of a code point. -/
def utf8Bytes (n : Nat) : ByteArray :=
  ⟨(String.utf8EncodeChar (Char.ofNat n)).toArray⟩

/-- Decodes a `\u` escape whose hex digits start at `p`: the bytes it stands for and how
many bytes it spans after the `u`. -/
def unicodeEscape (b : ByteArray) (p : Nat) : Except Fault (ByteArray × Nat) := do
  let n ← hex4 b p
  if 0xDC00 ≤ n ∧ n ≤ 0xDFFF then throw (.placedAt .loneLeadingSurrogateInHexEscape (p + 4))
  if n < 0xD800 ∨ 0xDBFF < n then return (utf8Bytes n, 4)
  -- A leading surrogate: a trailing one must follow as `\uXXXX`.
  let q := p + 4
  match b[q]? with
  | none => throw (.placedAt .eofWhileParsingString q)
  | some c =>
    if c != 0x5C then throw (.placedAt .unexpectedEndOfHexEscape (q + 1))
    match b[q + 1]? with
    | none => throw (.placedAt .eofWhileParsingString (q + 1))
    | some d =>
      if d != 0x75 then throw (.placedAt .unexpectedEndOfHexEscape (q + 2))
      let n2 ← hex4 b (q + 2)
      if n2 < 0xDC00 ∨ 0xDFFF < n2 then
        throw (.placedAt .loneLeadingSurrogateInHexEscape (q + 6))
      return (utf8Bytes ((n - 0xD800) * 0x400 + (n2 - 0xDC00) + 0x10000), 10)

/-- Decodes the escape whose letter is at offset `p`: the bytes it stands for and how many
bytes it spans after the letter. -/
def escapeAt (b : ByteArray) (p : Nat) : Except Fault (ByteArray × Nat) :=
  match b[p]? with
  | none => .error (.placedAt .eofWhileParsingString b.size)
  | some c =>
    let one := fun (x : UInt8) => Except.ok (ByteArray.empty.push x, 0)
    if c == 0x22 then one 0x22
    else if c == 0x5C then one 0x5C
    else if c == 0x2F then one 0x2F
    else if c == 0x62 then one 0x08
    else if c == 0x66 then one 0x0C
    else if c == 0x6E then one 0x0A
    else if c == 0x72 then one 0x0D
    else if c == 0x74 then one 0x09
    else if c == 0x75 then unicodeEscape b (p + 1)
    else .error (.placedAt .invalidEscape (p + 1))

/-- Reads string contents from offset `p` to the closing quote: the bytes read (after
`acc`) and the offset past the quote. -/
def stringBytes (b : ByteArray) (p : Nat) (acc : ByteArray) : Except Fault (ByteArray × Nat) :=
  if h : p < b.size then
    let c := b[p]
    if c == 0x22 then .ok (acc, p + 1)
    else if c == 0x5C then
      match escapeAt b (p + 1) with
      | .ok (out, extra) => stringBytes b (p + 2 + extra) (acc ++ out)
      | .error e => .error e
    else if c < 0x20 then .error (.placedAt .controlCharacterWhileParsingString (p + 1))
    else stringBytes b (p + 1) (acc.push c)
  else .error (.placedAt .eofWhileParsingString b.size)
termination_by b.size - p

/-- Reads a string whose opening quote has been passed. -/
def readString : ReadM String :=
  ofFunction fun b p => do
    let (bytes, p') ← stringBytes b p ByteArray.empty
    pure ((String.fromUTF8? bytes).getD "", p')

/-- Skips the escape whose letter is at offset `p`, without checking surrogates: how many
bytes it spans after the letter. -/
def skipEscapeAt (b : ByteArray) (p : Nat) : Except Fault Nat :=
  match b[p]? with
  | none => .error (.placedAt .eofWhileParsingString b.size)
  | some c =>
    if c == 0x22 || c == 0x5C || c == 0x2F || c == 0x62 || c == 0x66 || c == 0x6E ||
        c == 0x72 || c == 0x74 then .ok 0
    else if c == 0x75 then (hex4 b (p + 1)).map fun _ => 4
    else .error (.placedAt .invalidEscape (p + 1))

/-- Skips string contents from offset `p` past the closing quote. -/
def skipStringFrom (b : ByteArray) (p : Nat) : Except Fault Nat :=
  if h : p < b.size then
    let c := b[p]
    if c == 0x22 then .ok (p + 1)
    else if c == 0x5C then
      match skipEscapeAt b (p + 1) with
      | .ok extra => skipStringFrom b (p + 2 + extra)
      | .error e => .error e
    else if c < 0x20 then .error (.placedAt .controlCharacterWhileParsingString p)
    else skipStringFrom b (p + 1)
  else .error (.placedAt .eofWhileParsingString b.size)
termination_by b.size - p

/-! ### Numbers -/

/-- Whether a byte is a decimal digit. -/
def isDigit (c : UInt8) : Bool :=
  0x30 ≤ c && c ≤ 0x39

/-- The offset of the first byte at or after `p` that is not a digit. -/
def digitsEnd (b : ByteArray) (p : Nat) : Nat :=
  if h : p < b.size then (if isDigit b[p] then digitsEnd b (p + 1) else p) else p
termination_by b.size - p

/-- The largest value of 64 unsigned bits. -/
def maxU64 : Nat := Nat.pow 2 64 - 1

/-- The largest value of 32 signed bits. -/
def maxI32 : Int := 2147483647

/-- Clamps to the range of 32 signed bits. -/
def clampI32 (n : Int) : Int :=
  max (-2147483648) (min maxI32 n)

/-- The double nearest to a whole number, ties to even. -/
def nearestFloat (n : Nat) : Float :=
  if n < Nat.pow 2 53 then n.toUInt64.toFloat
  else
    let s := n.log2 - 52
    let q := n / Nat.pow 2 s
    let r := n % Nat.pow 2 s
    let half := Nat.pow 2 (s - 1)
    let q := if r > half ∨ (r = half ∧ q % 2 = 1) then q + 1 else q
    q.toUInt64.toFloat.scaleB s

/-- The powers of ten up to `10^308` as doubles, each the nearest to its value. -/
def powersOfTen : Array Float :=
  (List.range 309).toArray.map fun k => nearestFloat (Nat.pow 10 k)

/-- The double `significand · 10^exponent`, computed by multiplying or dividing by a power
of ten (repeatedly by `10^308` below that range); `none` when it overflows. -/
def scaleByTen (significand : Nat) (exponent : Int) : Option Float :=
  go (nearestFloat significand) exponent 4
where
  /-- At most `fuel` rounds of division by `10^308`. -/
  go (f : Float) (e : Int) : Nat → Option Float
    | 0 => some 0
    | fuel + 1 =>
      match powersOfTen[e.natAbs]? with
      | some pow =>
        if 0 ≤ e then (let g := f * pow; if g.isInf then none else some g) else some (f / pow)
      | none =>
        if f == 0 then some f
        else if 0 ≤ e then none
        else go (f / powersOfTen[308]!) (e + 308) fuel

/-- The double of a decimal with the given sign, or an out-of-range error at offset
`p`. -/
def floatOf (positive : Bool) (significand : Nat) (exponent : Int) (p : Nat) :
    Except Fault (Number × Nat) :=
  match scaleByTen significand exponent with
  | some f => .ok (.float (if positive then f else -f), p)
  | none => .error (.placedAt .numberOutOfRange p)

/-- Reads an exponent whose `e` is at offset `p`, for a decimal with the given sign,
significand and exponent so far. -/
def exponentPart (b : ByteArray) (p : Nat) (positive : Bool) (significand : Nat)
    (start : Int) : Except Fault (Number × Nat) :=
  let p := p + 1
  let (negativeExp, p) := match b[p]? with
    | some 0x2B => (false, p + 1)
    | some 0x2D => (true, p + 1)
    | _ => (false, p)
  match b[p]? with
  | none => .error (.placedAt .eofWhileParsingValue p)
  | some c =>
    if !isDigit c then .error (.placedAt .invalidNumber (p + 1))
    else
      let stop := digitsEnd b (p + 1)
      let digits := (b.extract p stop).toList.map fun d => d.toNat - 0x30
      -- Accumulates until the value would pass the 32-bit limit.
      let rec acc (e : Nat) (i : Nat) : List Nat → Sum Nat Nat
        | [] => .inl e
        | d :: rest =>
          if (e : Int) ≥ maxI32 / 10 ∧
              ((e : Int) > maxI32 / 10 ∨ (d : Int) > maxI32 % 10) then
            .inr i
          else acc (e * 10 + d) (i + 1) rest
      match acc (digits.headD 0) 1 (digits.drop 1) with
      | .inl e =>
        let total := clampI32 (if negativeExp then start - e else start + e)
        floatOf positive significand total stop
      | .inr i =>
        -- The exponent does not fit: out of range upwards, zero downwards.
        if significand ≠ 0 ∧ !negativeExp then .error (.placedAt .numberOutOfRange (p + i + 1))
        else .ok (.float (if positive then 0 else -0), stop)

/-- Reads the fraction whose `.` is at offset `p`. -/
def fractionPart (b : ByteArray) (p : Nat) (positive : Bool) (significand : Nat)
    (before : Int) : Except Fault (Number × Nat) :=
  let first := p + 1
  let stop := digitsEnd b first
  if stop = first then
    match b[first]? with
    | some _ => .error (.placedAt .invalidNumber (min b.size (first + 1)))
    | none => .error (.placedAt .eofWhileParsingValue b.size)
  else
    let digits := (b.extract first stop).toList.map fun d => d.toNat - 0x30
    -- Digits that would overflow the significand are dropped.
    let rec take (s : Nat) (count : Nat) : List Nat → Nat × Nat
      | [] => (s, count)
      | d :: rest =>
        if s ≥ maxU64 / 10 ∧ (s > maxU64 / 10 ∨ d > maxU64 % 10) then (s, count)
        else take (s * 10 + d) (count + 1) rest
    let (s, count) := take significand 0 digits
    let exponent := before - count
    match b[stop]? with
    | some 0x65 | some 0x45 => exponentPart b stop positive s exponent
    | _ => floatOf positive s exponent stop

/-- Reads the rest of a number after its significand `s`, at offset `p`. -/
def numberRest (b : ByteArray) (p : Nat) (positive : Bool) (s : Nat) :
    Except Fault (Number × Nat) :=
  match b[p]? with
  | some 0x2E => fractionPart b p positive s 0
  | some 0x65 | some 0x45 => exponentPart b p positive s 0
  | _ =>
    if positive then .ok (.nat s, p)
    else if 0 < s ∧ s ≤ Nat.pow 2 63 then .ok (.neg (-(s : Int)), p)
    else .ok (.float (-(nearestFloat s)), p)

/-- Reads a number from offset `p`, after its sign. -/
def numberFrom (b : ByteArray) (p : Nat) (positive : Bool) : Except Fault (Number × Nat) :=
  match b[p]? with
  | none => .error (.placedAt .eofWhileParsingValue p)
  | some 0x30 =>
    match b[p + 1]? with
    | some c => if isDigit c then .error (.placedAt .invalidNumber (min b.size (p + 2)))
      else numberRest b (p + 1) positive 0
    | none => numberRest b (p + 1) positive 0
  | some c =>
    if !isDigit c then .error (.placedAt .invalidNumber (p + 1))
    else
      let stop := digitsEnd b p
      let digits := (b.extract p stop).toList.map fun d => d.toNat - 0x30
      -- The significand is read while it fits in 64 bits; further digits raise the
      -- decimal exponent.
      let rec take (s : Nat) (count : Nat) : List Nat → Nat × Nat
        | [] => (s, count)
        | d :: rest =>
          if s ≥ maxU64 / 10 ∧ (s > maxU64 / 10 ∨ d > maxU64 % 10) then (s, count)
          else take (s * 10 + d) (count + 1) rest
      let (s, count) := take 0 0 digits
      if count = digits.length then numberRest b stop positive s
      else
        let extra : Int := digits.length - count
        match b[stop]? with
        | some 0x2E => fractionPart b stop positive s extra
        | some 0x65 | some 0x45 => exponentPart b stop positive s extra
        | _ => floatOf positive s extra stop

/-- Skips the whole part of a number at offset `p`, after its sign. -/
def skipWhole (b : ByteArray) (p : Nat) : Except Fault Nat :=
  match b[p]? with
  | none => .error (.placedAt .invalidNumber p)
  | some c =>
    if c == 0x30 then
      match b[p + 1]? with
      | some d => if isDigit d then .error (.placedAt .invalidNumber (min b.size (p + 2)))
        else .ok (p + 1)
      | none => .ok (p + 1)
    else if isDigit c then .ok (digitsEnd b p)
    else .error (.placedAt .invalidNumber (p + 1))

/-- Skips a fraction, if one starts at offset `p`. -/
def skipFraction (b : ByteArray) (p : Nat) : Except Fault Nat :=
  if b[p]? = some 0x2E then
    let stop := digitsEnd b (p + 1)
    if stop = p + 1 then .error (.placedAt .invalidNumber (min b.size (p + 2))) else .ok stop
  else .ok p

/-- Skips an exponent, if one starts at offset `p`. -/
def skipExponent (b : ByteArray) (p : Nat) : Except Fault Nat :=
  if b[p]? = some 0x65 ∨ b[p]? = some 0x45 then
    let q := if b[p + 1]? = some 0x2B ∨ b[p + 1]? = some 0x2D then p + 2 else p + 1
    match b[q]? with
    | some c =>
      if isDigit c then .ok (digitsEnd b (q + 1)) else .error (.placedAt .invalidNumber (q + 1))
    | none => .error (.placedAt .invalidNumber q)
  else .ok p

/-- Skips a number after its sign, checking only its form. -/
def skipNumberFrom (b : ByteArray) (p : Nat) : Except Fault Nat :=
  (skipWhole b p).bind fun q => (skipFraction b q).bind (skipExponent b)

end Breadboard.Json
