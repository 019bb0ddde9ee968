import Breadboard.Header.Blocks
import Breadboard.Header.Parameter
import Breadboard.Header.Prototype
/-!
# Classes in header text

A class head is `class NAME`, optionally followed by a base list after `:`, then `{`,
where `class` starts a word. The body runs to the brace that closes that `{`; a class
whose body never closes is reported and skipped. Heads are looked for left to right and
the scan resumes right behind each head's `{`, so a class nested in another is found too.

Only the public sections of a body declare members: the whole body when it has no access
label, and otherwise the stretches after each `public:` up to the next label. Before the
members are read, initializer lists are cut and inner brace blocks flattened. A member
named after its class is a constructor; another member needs a return type. A class
without methods and constructors is not listed, but its text still counts as taken by a
class.
-/

namespace Breadboard.Header

open Text

/-- A class head at the start of `cs` (given the character before it): its name, the
offset of its closing brace from the start, its body, and the number of characters up to
and including the `{`. -/
structure ClassHead where
  name : String
  /-- The offset of the closing `}` from the start of `class`, when the body closes. -/
  close : Option Nat
  /-- The text between the braces, when the body closes. -/
  body : List Char

/-- A class head at the start of `cs`, and the number of characters up to and including its
`{`. -/
def classHeadAt (prev : Option Char) (cs : List Char) : Option (ClassHead × Nat) := do
  guard (isWordBoundary prev cs.head? && startsWith cs "class")
  let r := cs.drop 5
  let (gap1, r) := spanClass isBlank r
  let (name, r) := spanClass isWordChar r
  guard (!gap1.isEmpty && !name.isEmpty)
  let (gap2, r) := spanClass isBlank r
  let (bases, r) := match r with
    | ':' :: r' =>
      let (b, r'') := spanClass (fun c => !(c == '{' || c == ';')) r'
      (1 + b.length, r'')
    | _ => (0, r)
  guard (r.head? = some '{')
  let n := 5 + gap1.length + name.length + gap2.length + bases + 1
  let block := cs.drop (n - 1)
  let head := match closingIndex block with
    | some k => { name := String.ofList name, close := some (n - 1 + k),
                  body := (block.drop 1).take (k - 1) }
    | none => { name := String.ofList name, close := none, body := [] }
  pure (head, n)

/-- An access label `public:`, `private:` or `protected:` at the start of `cs` (given the
character before it): its word, and its length. -/
def accessLabelAt (prev : Option Char) (cs : List Char) : Option (String × Nat) := do
  guard (isWordBoundary prev cs.head?)
  let word ← ["public", "private", "protected"].find? (startsWith cs ·)
  let (gap, r) := spanClass isBlank (cs.drop word.length)
  guard (r.head? = some ':')
  pure (word, word.length + gap.length + 1)

/-- The public sections of a class body. -/
def publicSections (body : List Char) : List (List Char) :=
  let labels := occurrences accessLabelAt none 0 body
  if labels.isEmpty then [body]
  else
    let ends := (labels.drop 1).map (·.2.1) ++ [body.length]
    (labels.zip ends).filterMap fun ((word, start, n), stop) =>
      if word == "public" then some ((body.drop (start + n)).take (stop - (start + n))) else none

/-- The member of class `cls` that a prototype declares, given its parameters and their
warnings: a constructor, tagged `true`, when it is named after the class, and otherwise a
method, tagged `false`, which needs a return part. -/
def memberOf (cls : String) (p : Prototype) (read : List Parameter × List Warning) :
    List (Bool × FunctionDecl) × List Warning :=
  let (params, ws) := read
  if p.name == cls then ([(true, FunctionDecl.constructor cls params)], ws)
  else if p.returnPart.isEmpty then ([], ws ++ [.malformedDeclaration p.fragment])
  else
    ([(false, FunctionDecl.method cls p.name (TypeName.resolveDeclared p.returnPart) params)], ws)

/-- The members read from one public section of class `cls`: constructors and methods in
order, each tagged as a constructor (`true`) or not, and the warnings. -/
def readSection (cls : String) (part : List Char) :
    List (Bool × FunctionDecl) × List Warning :=
  let found := scanPrototypes false part
  let scanWarnings := (malformedOf found).map Warning.malformedDeclaration
  let results := (prototypesOf found).map fun p => memberOf cls p (readParameters p.params p.name)
  (results.flatMap (·.1), scanWarnings ++ results.flatMap (·.2))

/-- What one class head yields: the class (when it has members), the span of text it
takes, and its warnings. -/
structure ClassReading where
  decl : Option ClassDecl
  span : Option (Nat × Nat)
  warnings : List Warning

/-- The class `cls` with the members read from its public sections, when it has a method or a
constructor. -/
def classDeclOf (cls : String) (members : List (Bool × FunctionDecl)) : Option ClassDecl :=
  let methods := members.filterMap fun (isCtor, f) => if isCtor then none else some f
  let constructors := members.filterMap fun (isCtor, f) => if isCtor then some f else none
  if methods.isEmpty && constructors.isEmpty then none
  else some { name := cls, methods, constructors }

/-- Reads the class whose head starts at position `pos`. -/
def readClass (head : ClassHead) (pos : Nat) : ClassReading :=
  match head.close with
  | none => { decl := none, span := none, warnings := [.unterminatedClass head.name] }
  | some close =>
    let body := flattenFrom 0 (cutFrom {} head.body)
    let results := (publicSections body).map (readSection head.name)
    { decl := classDeclOf head.name (results.flatMap (·.1)), span := some (pos, pos + close + 1),
      warnings := results.flatMap (·.2) }

/-- The classes of a text with members, the spans of text taken by classes, and the
warnings, all in text order. -/
def readClasses (text : List Char) : List ClassDecl × List (Nat × Nat) × List Warning :=
  let found := (occurrences classHeadAt none 0 text).map fun (head, pos, _) => readClass head pos
  (found.filterMap (·.decl), found.filterMap (·.span), found.flatMap (·.warnings))

end Breadboard.Header
