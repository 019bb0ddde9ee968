import Breadboard.Header.TypeName
import Breadboard.Header.Warning
/-!
# Constants of a header

Two kinds of lines declare constants:

* an object-like macro `#define NAME VALUE`, at the start of a line after blanks and tabs.
  A function-like macro `#define NAME(…)`, an include guard (a name ending in `_H` or
  `_H_`) and a macro with no value are skipped; a value ending in `\` continues on the
  next line, which is not followed, so the macro is skipped with a warning. The type is
  read off the value's shape.
* a constant global `const TYPE NAME = VALUE;`, where `const` starts a word. The type goes
  through the plain type table.
-/

namespace Breadboard.Header

open Text

/-- A space or a tab, the blanks a macro line may hold around `#` and `define`. -/
def isSpaceOrTab (c : Char) : Bool :=
  c == ' ' || c == '\t'

/-- A line that opens with `#define NAME`, blanks and tabs allowed before and after `#` and
before the name: the name, whether `(` follows it directly, and the rest of the line after the
name and that `(`. -/
def defineMatch (line : List Char) : Option (List Char × Bool × List Char) :=
  match line.dropWhile isSpaceOrTab with
  | '#' :: r =>
    let r := r.dropWhile isSpaceOrTab
    if startsWith r "define" then
      let r := r.drop 6
      if (r.head?.map isSpaceOrTab).getD false then
        let (name, after) := spanClass isWordChar (r.dropWhile isSpaceOrTab)
        if name.isEmpty then none
        else
          match after with
          | '(' :: rest => some (name, true, rest)
          | _ => some (name, false, after)
      else none
    else none
  | _ => none

/-- What one line says as a macro: `none` when it is no object-like macro with a value, and
otherwise its name and its trimmed value. -/
def macroOfLine (line : List Char) : Option (List Char × List Char) :=
  match defineMatch line with
  | some (name, false, after) =>
    let value := trimChars after
    if value.isEmpty then none else some (name, value)
  | _ => none

/-- Whether a macro name is an include guard. -/
def isIncludeGuard (name : List Char) : Bool :=
  let s := String.ofList name
  s.endsWith "_H" || s.endsWith "_H_"

/-- What a macro line contributes: nothing, a constant, or a warning. -/
def defineOfLine (line : List Char) : Option (Except Warning Constant) :=
  match macroOfLine line with
  | none => none
  | some (name, value) =>
    if isIncludeGuard name then none
    else if value.getLast? = some '\\' then some (.error (.multiLineMacro (String.ofList name)))
    else
      let v := String.ofList value
      some (.ok { name := String.ofList name, value := v, type := TypeName.ofLiteral v })

/-- The constants declared by macros, and the warnings about skipped macros, in line
order. -/
def readDefines (text : List Char) : List Constant × List Warning :=
  let found := (text.splitOn '\n').filterMap defineOfLine
  (found.filterMap fun r => match r with | .ok c => some c | .error _ => none,
    found.filterMap fun r => match r with | .ok _ => none | .error w => some w)

/-- A constant global `const TYPE NAME = VALUE;` at the start of `cs`, given the character
before it: its type word, its name and its value as written, and the number of characters it
spans. -/
def constGlobalAt (prev : Option Char) (cs : List Char) :
    Option ((List Char × List Char × List Char) × Nat) := do
  guard (isWordBoundary prev cs.head? && startsWith cs "const")
  let r := cs.drop 5
  let (gap1, r) := spanClass isBlank r
  let (type, r) := spanClass isWordChar r
  let (gap2, r) := spanClass isBlank r
  let (name, r) := spanClass isWordChar r
  guard (!gap1.isEmpty && !type.isEmpty && !gap2.isEmpty && !name.isEmpty)
  let (gap3, r) := spanClass isBlank r
  guard (r.head? = some '=')
  let (gap4, r) := spanClass isBlank (r.drop 1)
  let (value, r) := spanClass (fun c => !(c == ';' || c == '(' || c == ')')) r
  guard (r.head? = some ';')
  -- An empty value still matches when a blank before the `;` can stand for it.
  guard (!value.isEmpty || !gap4.isEmpty)
  let length := 5 + gap1.length + type.length + gap2.length + name.length + gap3.length + 1 +
    gap4.length + value.length + 1
  pure ((type, name, value), length)

/-- The constant a constant global declares: its name, its trimmed value, and its type word
read through the plain type table. -/
def constantOf (type name value : List Char) : Constant :=
  ⟨String.ofList name, String.ofList (trimChars value), TypeName.resolve (String.ofList type)⟩

/-- The constant globals declared in a text. -/
def readConstGlobals (text : List Char) : List Constant :=
  (occurrences constGlobalAt none 0 text).map fun ((type, name, value), _) =>
    constantOf type name value

end Breadboard.Header
