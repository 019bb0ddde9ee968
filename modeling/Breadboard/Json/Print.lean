import Breadboard.Json.Value
import Breadboard.Decimal.Shortest
/-!
# Writing JSON text

Compact text (no blanks) and pretty text (two-space indentation, a space after each `:`).
A string escapes `"` and `\` with a backslash, the controls backspace, form feed, newline,
carriage return and tab by their letters, other control characters as `\u00xx` with
lower-case hex digits, and writes every other character, non-ASCII included, as it is.

A double is written with the fewest digits that read back (`Decimal.shortest`). Numbers
from `10^-5` up to below `10^16` are written positionally, whole values with `.0`; all
others as `d.ddde±x`, the exponent with its sign and no padding.
-/

namespace Breadboard.Json

/-- The hex digit of a value below sixteen, lower case. -/
def hexDigit (n : Nat) : Char :=
  if n < 10 then Char.ofNat (48 + n) else Char.ofNat (87 + n)

/-- The escaped form of one character inside a JSON string. -/
def escapeChar (c : Char) : List Char :=
  if c = '"' then ['\\', '"']
  else if c = '\\' then ['\\', '\\']
  else if c = '\x08' then ['\\', 'b']
  else if c = '\x0c' then ['\\', 'f']
  else if c = '\n' then ['\\', 'n']
  else if c = '\r' then ['\\', 'r']
  else if c = '\t' then ['\\', 't']
  else if c.toNat < 0x20 then
    ['\\', 'u', '0', '0', hexDigit (c.toNat / 16), hexDigit (c.toNat % 16)]
  else [c]

/-- A string as a JSON string literal. -/
def quote (s : String) : String :=
  String.ofList ('"' :: (s.toList.flatMap escapeChar ++ ['"']))

/-- The digits of a whole number in base ten. -/
def natText (n : Nat) : String :=
  String.ofList (Nat.toDigits 10 n)

/-- The text of a decimal `digits · 10^exponent` (digits without trailing zeros, positive),
by the rule of this module. -/
def scientificText (s : Decimal.Scientific) : String :=
  let ds := Nat.toDigits 10 s.digits
  let len := ds.length
  -- The number of digits before the point.
  let kk : Int := len + s.exponent
  if 0 < kk ∧ kk ≤ 16 then
    let k := kk.toNat
    if len ≤ k then String.ofList (ds ++ List.replicate (k - len) '0') ++ ".0"
    else String.ofList (ds.take k) ++ "." ++ String.ofList (ds.drop k)
  else if -5 < kk ∧ kk ≤ 0 then
    "0." ++ String.ofList (List.replicate (-kk).toNat '0' ++ ds)
  else
    let e := kk - 1
    let mantissa := match ds with
      | [d] => String.ofList [d]
      | d :: rest => String.ofList (d :: '.' :: rest)
      | [] => "0"
    mantissa ++ "e" ++ (if e < 0 then "-" else "+") ++ natText e.natAbs

/-- The text of a finite double. -/
def floatText (x : Float) : String :=
  let negative := x.toBits.toNat ≥ Nat.pow 2 63
  let magnitude := if x == 0 then "0.0" else scientificText (Decimal.shortest x)
  (if negative then "-" else "") ++ magnitude

/-- The text of a number. -/
def Number.text : Number → String
  | .nat n => natText n
  | .neg n => "-" ++ natText n.natAbs
  | .float x => floatText x

mutual
/-- Compact JSON text. -/
def Value.compact : Value → String
  | .null => "null"
  | .bool true => "true"
  | .bool false => "false"
  | .num n => n.text
  | .str s => quote s
  | .arr items => "[" ++ compactItems items ++ "]"
  | .obj members => "\x7b" ++ compactMembers members ++ "\x7d"

/-- Items of an array, compact, separated by commas. -/
def compactItems : List Value → String
  | [] => ""
  | [v] => v.compact
  | v :: rest => v.compact ++ "," ++ compactItems rest

/-- Members of an object, compact, separated by commas. -/
def compactMembers : List (String × Value) → String
  | [] => ""
  | [(k, v)] => quote k ++ ":" ++ v.compact
  | (k, v) :: rest => quote k ++ ":" ++ v.compact ++ "," ++ compactMembers rest
end

/-- Two spaces per level of nesting. -/
def indentText (level : Nat) : String :=
  String.ofList (List.replicate (2 * level) ' ')

mutual
/-- Pretty JSON text of a value nested `level` deep: each item and member on a line of its
own, indented two spaces per level; empty arrays and objects stay `[]` and `{}`. -/
def Value.pretty (level : Nat) : Value → String
  | .arr [] => "[]"
  | .arr items => "[\n" ++ prettyItems (level + 1) items ++ "\n" ++ indentText level ++ "]"
  | .obj [] => "\x7b\x7d"
  | .obj members =>
    "\x7b\n" ++ prettyMembers (level + 1) members ++ "\n" ++ indentText level ++ "\x7d"
  | v => v.compact

/-- Items of an array, each on its own line at `level`. -/
def prettyItems (level : Nat) : List Value → String
  | [] => ""
  | [v] => indentText level ++ v.pretty level
  | v :: rest => indentText level ++ v.pretty level ++ ",\n" ++ prettyItems level rest

/-- Members of an object, each on its own line at `level`. -/
def prettyMembers (level : Nat) : List (String × Value) → String
  | [] => ""
  | [(k, v)] => indentText level ++ quote k ++ ": " ++ v.pretty level
  | (k, v) :: rest =>
    indentText level ++ quote k ++ ": " ++ v.pretty level ++ ",\n" ++ prettyMembers level rest
end

end Breadboard.Json
