import Breadboard.Header.TypeName
import Breadboard.Header.Warning
/-!
# Parameter lists

Reading the parameter list of a declaration, such as
`const char *label, int count = 3, float values[]`.

The list splits at commas that stand at nesting depth zero: commas inside `<>`, `()` or a
string or character literal do not split. Each piece is one parameter: an optional
default value after its first top-level `=`, then type words and a name. The name is the
rightmost identifier that is not a type keyword and follows at least one word that names
a type; an array name `values[]` makes the type a pointer. A piece with no such name gets
the name `arg` followed by its position. A piece that cannot be read is reported and
skipped, and the rest of the list is still read.
-/

namespace Breadboard.Header

open Text

/-- Bracket depth and literal state while scanning parameter text. `<` and `(` open a
level and `>` and `)` close one; the depth may go below zero. -/
structure Nesting where
  depth : Int := 0
  quote : Option Char := none
  escaped : Bool := false
  deriving DecidableEq, Repr

namespace Nesting

/-- Feeds one character: the state after it, and whether it stands at depth zero outside
any literal. -/
def feed (st : Nesting) (c : Char) : Nesting × Bool :=
  match st.quote with
  | some q =>
    if st.escaped then ({ st with escaped := false }, false)
    else if c = '\\' then ({ st with escaped := true }, false)
    else if c = q then ({ st with quote := none }, false)
    else (st, false)
  | none =>
    if c = '"' ∨ c = '\'' then ({ st with quote := some c }, false)
    else if c = '<' ∨ c = '(' then ({ st with depth := st.depth + 1 }, false)
    else if c = '>' ∨ c = ')' then ({ st with depth := st.depth - 1 }, false)
    else (st, st.depth == 0)

/-- Every bracket closed and no literal open. -/
def isBalanced (st : Nesting) : Bool :=
  st.depth == 0 && st.quote.isNone

end Nesting

/-- The pieces of `cs` between top-level commas, each trimmed; `cur` holds the current
piece, last character first. -/
def piecesFrom : Nesting → List Char → List Char → List (List Char)
  | _, cur, [] => [trimChars cur.reverse]
  | st, cur, c :: rest =>
    let (st', top) := st.feed c
    if top ∧ c = ',' then trimChars cur.reverse :: piecesFrom st' [] rest
    else piecesFrom st' (c :: cur) rest

/-- The non-empty trimmed pieces of a parameter list between top-level commas. -/
def splitList (s : String) : List String :=
  ((piecesFrom {} [] s.toList).filter (!·.isEmpty)).map String.ofList

/-- The position of the first top-level `=` in `cs` (counted from `i`) and the nesting
state after all of `cs`. -/
def scanEquals : Nesting → Nat → Option Nat → List Char → Option Nat × Nesting
  | st, _, found, [] => (found, st)
  | st, i, found, c :: rest =>
    let (st', top) := st.feed c
    let found' := if found.isNone ∧ top ∧ c = '=' then some i else found
    scanEquals st' (i + 1) found' rest

/-- Splits a parameter into its declaration and its default value, both trimmed. -/
def splitDefault (part : List Char) : Except ParamFault (List Char × Option (List Char)) :=
  let (found, st) := scanEquals {} 0 none part
  if !st.isBalanced then .error .unbalanced
  else
    match found with
    | some i =>
      let d := trimChars (part.drop (i + 1))
      if d.isEmpty then .error .emptyDefault else .ok (trimChars (part.take i), some d)
    | none => .ok (trimChars part, none)

/-- An identifier: an ASCII letter or `_`, then ASCII letters, digits and `_`. -/
def isIdentifier : List Char → Bool
  | [] => false
  | c :: rest => (c.isAlpha || c == '_') && rest.all (fun d => d.isAlphanum || d == '_')

/-- The identifier a token names and whether it carries an array suffix (`values[]`). -/
def nameCandidate (token : List Char) : Option (List Char × Bool) :=
  let (ident, bracket) := token.span (· ≠ '[')
  if bracket.isEmpty then (if isIdentifier token then some (token, false) else none)
  else if token.getLast? = some ']' ∧ isIdentifier ident then some (ident, true)
  else none

/-- Words that qualify a type, or are built-in types, and so are never a parameter's
name. -/
def reservedWords : List String :=
  ["const", "volatile", "static", "unsigned", "signed", "long", "short", "struct", "class",
    "enum", "typename", "template", "void", "int", "char", "float", "double", "bool"]

/-- Qualifiers that do not name a type on their own (unlike `unsigned` or `long`). -/
def nonTypeWords : List String :=
  ["const", "volatile", "static", "struct", "class", "enum", "typename", "template"]

/-- Whether some token names a type: one that is neither `*`, `&` nor a qualifier that
names no type. -/
def namesType (tokens : List (List Char)) : Bool :=
  tokens.any fun t => !(t == ['*'] || t == ['&'] || nonTypeWords.contains (String.ofList t))

/-- Searches the tokens, given last first, for the rightmost name that follows a type:
the name, the tokens before it in order, and whether it is an array. -/
def findName : List (List Char) → Option (List Char × List (List Char) × Bool)
  | [] => none
  | t :: before =>
    match nameCandidate t with
    | some (ident, isArray) =>
      if reservedWords.contains (String.ofList ident) || !namesType before.reverse then
        findName before
      else some (ident, before.reverse, isArray)
    | none => findName before

/-- The tokens of a declaration: its words, with `*` and `&` standing as words of their
own. -/
def declTokens (decl : List Char) : List (List Char) :=
  wordsOf (decl.flatMap fun c => if c = '*' ∨ c = '&' then [' ', c, ' '] else [c])

/-- The tokens joined by single spaces. -/
def joinTokens (tokens : List (List Char)) : String :=
  " ".intercalate (tokens.map String.ofList)

/-- Reads one parameter; `index` is its position in the list, used for a missing name. -/
def readParameter (part : List Char) (index : Nat) : Except ParamFault Parameter := do
  if containsText part "..." then throw .variadic
  let (decl, defaultValue) ← splitDefault part
  let tokens := declTokens decl
  let (name, typeText) := match findName tokens.reverse with
    | some (ident, before, isArray) =>
      (String.ofList ident, joinTokens before ++ (if isArray then " *" else ""))
    | none => ("arg" ++ toString index, joinTokens tokens)
  if isBlankText typeText then throw .missingType
  pure
    { name, type := TypeName.resolveDeclared typeText,
      defaultValue := defaultValue.map String.ofList }

/-- Each piece of a parameter list with the parameter read from it or its fault. A blank
list and `void` have no pieces. -/
def readPieces (text : String) : List (String × Except ParamFault Parameter) :=
  let t := trim text
  if t.isEmpty || t == "void" then []
  else (splitList t).zipIdx.map fun (part, i) => (part, readParameter part.toList i)

/-- One piece of a parameter list of `function`, and what reading it gave, added in front of
the parameters and warnings of the pieces after it. -/
def gatherPiece (function : String) (piece : String × Except ParamFault Parameter)
    (acc : List Parameter × List Warning) : List Parameter × List Warning :=
  match piece.2 with
  | .ok p => (p :: acc.1, acc.2)
  | .error fault => (acc.1, .malformedParameter function piece.1 fault :: acc.2)

/-- The parameters of a list, and a warning for each piece that could not be read, both
in list order. -/
def readParameters (text function : String) : List Parameter × List Warning :=
  (readPieces text).foldr (gatherPiece function) ([], [])

end Breadboard.Header
