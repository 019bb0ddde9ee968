import Breadboard.ValueType.Basic
import Breadboard.Text.Blank
import Breadboard.Text.Scan
/-!
# C type spellings as value types

How a type written in a header becomes a value type. A plain spelling goes through a
fixed table (`unsigned int` is `uint16_t`, `size_t` is `uint32_t`); a pointer to `char` or
`int` has its own kind and every other pointer is `any`; a reference reads as its base
type. A declared type first loses its `const`, `volatile` and `static` words; a container
template (`std::vector<…>`) is `any` and a string template is `String`; namespace prefixes
are dropped. What the table does not know is `any`.

A macro value's type is read off its first character and shape (`ofLiteral`).
-/

namespace Breadboard.TypeName

open Text

/-- The value type of a plain spelling in the fixed table. -/
def baseType? : String → Option ValueType
  | "void" => some .void
  | "int" => some .int
  | "long" => some .long
  | "float" => some .float
  | "double" => some .double
  | "bool" => some .bool
  | "boolean" => some .boolean
  | "byte" => some .byte
  | "char" => some .char
  | "String" => some .string
  | "uint8_t" => some .uint8
  | "uint16_t" => some .uint16
  | "uint32_t" => some .uint32
  | "unsigned long" => some .unsignedLong
  | "unsigned int" => some .uint16
  | "unsigned char" => some .uint8
  | "size_t" => some .uint32
  | "word" => some .uint16
  | _ => none

/-- The words of a text joined by single spaces. -/
def squeeze (s : String) : String :=
  " ".intercalate (words s)

/-- Resolves a plain spelling. A `*` anywhere makes it a pointer: `char` and `int`
pointers have their own kinds, other pointers are `any`. `*` and `&` otherwise read as
blanks, and an unknown spelling is `any`. -/
def resolve (t : String) : ValueType :=
  let spaced := t.toList.map fun c => if c = '*' ∨ c = '&' then ' ' else c
  let clean := squeeze (String.ofList spaced)
  if t.toList.contains '*' then
    if clean = "char" then .charPtr else if clean = "int" then .intPtr else .any
  else (baseType? clean).getD .any

/-- The qualifier words removed from a declared type. -/
def qualifierWords : List String := ["const", "volatile", "static"]

/-- The length of a qualifier word standing as a whole word at the start of `cs`, given the
character before it; `0` when there is none. -/
def qualifierAt (prev : Option Char) (cs : List Char) : Nat :=
  if isWordBoundary prev cs.head? then
    match qualifierWords.find? (fun k =>
        startsWith cs k && !(((cs.drop k.length).head?.map isWordChar).getD false)) with
    | some k => k.length
    | none => 0
  else 0

/-- The length of a namespace prefix `name::` at the start of `cs`; `0` when there is none. -/
def namespaceAt (_ : Option Char) (cs : List Char) : Nat :=
  let (name, rest) := spanClass isWordChar cs
  if !name.isEmpty && startsWith rest "::" then name.length + 2 else 0

/-- The leading name of a template spelling: a run of word characters and colons, then
blanks, a `<`, and a `>` somewhere after it. -/
def templateBase? (cs : List Char) : Option (List Char) :=
  let (base, rest) := spanClass (fun c => isWordChar c || c == ':') cs
  if base.isEmpty then none
  else
    match rest.dropWhile isBlank with
    | '<' :: after => if after.contains '>' then some base else none
    | _ => none

/-- Template names that hold several values and so have no single value type. -/
def containerNames : List String :=
  ["vector", "list", "array", "pair", "tuple", "initializer_list"]

/-- Resolves a declared type, with qualifiers, namespaces and templates. -/
def resolveDeclared (t : String) : ValueType :=
  let unqualified := trimChars (removeMatches qualifierAt none t.toList)
  let plain := resolve (String.ofList (removeMatches namespaceAt none unqualified))
  match templateBase? unqualified with
  | some base =>
    if containerNames.any (containsText base) then .any
    else if containsText base "string" || base == "String".toList then .string
    else plain
  | none => plain

/-- The type of a macro value: a string literal, a character literal, a truth value, a
number with a point, and otherwise an integer (hex numbers and expressions included). -/
def ofLiteral (v : String) : ValueType :=
  if v.startsWith "\"" then .string
  else if v.startsWith "'" then .char
  else if v = "true" ∨ v = "false" then .bool
  else if v.contains '.' then .float
  else .int

end Breadboard.TypeName
