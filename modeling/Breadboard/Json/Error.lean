import Breadboard.Json.Print
import Breadboard.Text.Printable
/-!
# Errors of JSON reading

Why a JSON text could not be read into a value of the expected shape, and where. Errors
are of two sorts. A syntax error (a missing `:`, an unfinished string, a bad escape, …)
is found at a byte of the text. A shape error (a value of the wrong type, a missing or
repeated field, an unknown name of a type, too few items for a record) is found by the
reader of a value, and is placed where the reading of the enclosing value stopped.

A position is a line (one plus the newlines before it) and a column (the bytes since the
last newline before it).
-/

namespace Breadboard.Json

/-- What was found where something else was expected. -/
inductive Unexpected where
  | null
  | bool (b : Bool)
  | unsigned (n : Nat)
  | signed (n : Int)
  | float (x : Float)
  | string (s : String)
  | seq
  | map

/-- The hex digits of a number, lower case, without leading zeros. -/
def hexText (n : Nat) : String :=
  String.ofList (Nat.toDigits 16 n)

/-- How one character of a string is shown in a message. -/
def showChar (c : Char) : String :=
  if c = '\x00' then "\\0"
  else if c = '\t' then "\\t"
  else if c = '\r' then "\\r"
  else if c = '\n' then "\\n"
  else if c = '\\' then "\\\\"
  else if c = '"' then "\\\""
  else if Text.isGraphemeExtend c || !Text.isPrintable c then
    "\\u\x7b" ++ hexText c.toNat ++ "\x7d"
  else String.singleton c

/-- A string as shown in a message: in double quotes, with quotes, backslashes, controls,
unprintable characters and grapheme extenders escaped. -/
def showString (s : String) : String :=
  "\"" ++ String.join (s.toList.map showChar) ++ "\""

/-- The description of an unexpected value. -/
def Unexpected.describe : Unexpected → String
  | .null => "null"
  | .bool b => "boolean `" ++ (if b then "true" else "false") ++ "`"
  | .unsigned n => "integer `" ++ natText n ++ "`"
  | .signed n => "integer `" ++ (if n < 0 then "-" else "") ++ natText n.natAbs ++ "`"
  | .float x => "floating point `" ++ floatText x ++ "`"
  | .string s => "string " ++ showString s
  | .seq => "sequence"
  | .map => "map"

/-- The expected names of an enumeration, as listed in a message. -/
def oneOf : List String → String
  | [] => "there are no variants"
  | [a] => "`" ++ a ++ "`"
  | [a, b] => "`" ++ a ++ "` or `" ++ b ++ "`"
  | names => "one of " ++ ", ".intercalate (names.map fun n => "`" ++ n ++ "`")

/-- Why reading failed. -/
inductive ErrorCode where
  | eofWhileParsingList
  | eofWhileParsingObject
  | eofWhileParsingString
  | eofWhileParsingValue
  | expectedColon
  | expectedListCommaOrEnd
  | expectedObjectCommaOrEnd
  | expectedSomeIdent
  | expectedSomeValue
  | invalidEscape
  | invalidNumber
  | numberOutOfRange
  | controlCharacterWhileParsingString
  | keyMustBeAString
  | loneLeadingSurrogateInHexEscape
  | trailingComma
  | trailingCharacters
  | unexpectedEndOfHexEscape
  | recursionLimitExceeded
  /-- A value of the wrong type; `expected` describes the right one. -/
  | invalidType (found : Unexpected) (expected : String)
  /-- A record given as an array with too few items. -/
  | invalidLength (count : Nat) (expected : String)
  | missingField (name : String)
  | duplicateField (name : String)
  /-- A name of no variant of an enumeration. -/
  | unknownVariant (name : String) (variants : List String)

/-- The text of an error code. -/
def ErrorCode.describe : ErrorCode → String
  | .eofWhileParsingList => "EOF while parsing a list"
  | .eofWhileParsingObject => "EOF while parsing an object"
  | .eofWhileParsingString => "EOF while parsing a string"
  | .eofWhileParsingValue => "EOF while parsing a value"
  | .expectedColon => "expected `:`"
  | .expectedListCommaOrEnd => "expected `,` or `]`"
  | .expectedObjectCommaOrEnd => "expected `,` or `\x7d`"
  | .expectedSomeIdent => "expected ident"
  | .expectedSomeValue => "expected value"
  | .invalidEscape => "invalid escape"
  | .invalidNumber => "invalid number"
  | .numberOutOfRange => "number out of range"
  | .controlCharacterWhileParsingString =>
    "control character (\\u0000-\\u001F) found while parsing a string"
  | .keyMustBeAString => "key must be a string"
  | .loneLeadingSurrogateInHexEscape => "lone leading surrogate in hex escape"
  | .trailingComma => "trailing comma"
  | .trailingCharacters => "trailing characters"
  | .unexpectedEndOfHexEscape => "unexpected end of hex escape"
  | .recursionLimitExceeded => "recursion limit exceeded"
  | .invalidType found expected => "invalid type: " ++ found.describe ++ ", expected " ++ expected
  | .invalidLength n expected => "invalid length " ++ natText n ++ ", expected " ++ expected
  | .missingField name => "missing field `" ++ name ++ "`"
  | .duplicateField name => "duplicate field `" ++ name ++ "`"
  | .unknownVariant name variants => "unknown variant `" ++ name ++ "`, expected " ++ oneOf variants

/-- A reading error at a position of the text. -/
structure Error where
  code : ErrorCode
  line : Nat
  column : Nat

/-- The message of a reading error. -/
def Error.message (e : Error) : String :=
  e.code.describe ++ " at line " ++ natText e.line ++ " column " ++ natText e.column

/-- The line and column of byte offset `i` of a text. -/
def position (bytes : ByteArray) (i : Nat) : Nat × Nat :=
  let before := (bytes.extract 0 i).toList
  let lineStart := before.length - (before.reverse.takeWhile (· ≠ 10)).length
  (1 + (before.take lineStart).count 10, i - lineStart)

end Breadboard.Json
