import Breadboard.Text.Blank
/-!
# Value types

The closed set of value kinds that a port, a parameter or a constant carries, each with
the spelling written into generated sketches (`unsigned long`, `char*`), the literal that
stands in for a missing argument, and reading a spelling back.

Main statement: reading the spelling of a type gives the type back (`ofString?_spelling`).
-/

namespace Breadboard

/-- A value kind of the sketch language. -/
inductive ValueType where
  | void
  | int
  | long
  | float
  | double
  | bool
  | boolean
  | byte
  | char
  | string
  | uint8
  | uint16
  | uint32
  | unsignedLong
  | intPtr
  | charPtr
  | any
  deriving DecidableEq, Repr, Inhabited

namespace ValueType

/-- Every value type, in the order tables and messages list them. -/
def all : List ValueType :=
  [void, int, long, float, double, bool, boolean, byte, char, string, uint8, uint16, uint32,
    unsignedLong, intPtr, charPtr, any]

/-- The spelling of a type in generated sketches. -/
def spelling : ValueType → String
  | void => "void"
  | int => "int"
  | long => "long"
  | float => "float"
  | double => "double"
  | bool => "bool"
  | boolean => "boolean"
  | byte => "byte"
  | char => "char"
  | string => "String"
  | uint8 => "uint8_t"
  | uint16 => "uint16_t"
  | uint32 => "uint32_t"
  | unsignedLong => "unsigned long"
  | intPtr => "int*"
  | charPtr => "char*"
  | any => "any"

instance : ToString ValueType := ⟨spelling⟩

/-- The literal used for an argument that has neither a connection nor a literal. -/
def zeroValue : ValueType → String
  | string => "\"\""
  | bool | boolean => "false"
  | float | double => "0.0"
  | char => "'\\0'"
  | _ => "0"

/-- Whether the type is `void`, the type of a call with no result. -/
def isVoid (t : ValueType) : Bool :=
  t == void

/-- The type spelled exactly `s`, if any. -/
def ofSpelling? (s : String) : Option ValueType :=
  all.find? (fun t => t.spelling == s)

/-- A text that spells no value type, after trimming. -/
structure UnknownSpelling where
  /-- The trimmed text. -/
  text : String
  deriving DecidableEq, Repr

/-- The message for a text that spells no value type. -/
def UnknownSpelling.message (e : UnknownSpelling) : String :=
  "Unknown value type '" ++ e.text ++ "'"

/-- Reads a value type from its spelling, ignoring blanks around it. -/
def ofString? (s : String) : Except UnknownSpelling ValueType :=
  let t := Text.trim s
  match ofSpelling? t with
  | some v => .ok v
  | none => .error ⟨t⟩

theorem ofSpelling?_spelling (t : ValueType) : ofSpelling? t.spelling = some t := by
  cases t <;> rfl

end ValueType

end Breadboard
