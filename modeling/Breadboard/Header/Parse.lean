import Breadboard.Header.Read
import Breadboard.Json.Error
/-!
# Parsing a header at byte offsets

The header reader works on the UTF-8 bytes of its text. Every cut it makes is at byte offsets
that its scans compute: the body of a class after its `{`, the public sections between access
labels, the name at the end of a prototype's head, a parameter before and after its first
top-level `=`, a parameter name before its `[`, and the library name before the file's
extension. A cut can fault: at an offset past the end of its text, at one inside a character,
or from a start after its end. The texts a pattern matched are read by capture group, and reading
a group that took no part in its match faults. The bracket depth kept while splitting a
parameter list is a signed 32-bit counter, and leaving its range faults.

A fault stops the whole reading: `parse` then answers a `ParseError` that names the header and
gives the fault's message. When nothing faults, `parse` answers what `read` reads, where every
cut is made on characters and nothing can fault (`Proofs/Header/Faults`).

Each step here stands beside the step of `read` that it mirrors: `cutLibraryName` beside
`libraryName`, `parseDefines` beside `readDefines`, and so on down to `cutNameCandidate` beside
`nameCandidate`.
-/

namespace Breadboard.Header

open Text

/-! ## Faults -/

/-- A fault of the reader itself, which stops the reading of the whole header. -/
inductive Fault where
  /-- A cut of `text` at byte `index`, past its end. -/
  | outOfBounds (index : Nat) (text : List Char)
  /-- A cut of `text` from byte `lo` to byte `hi`, where `lo` lies after `hi`. -/
  | reversed (lo hi : Nat) (text : List Char)
  /-- A cut of `text` at byte `index`, inside a character. -/
  | insideChar (index : Nat) (text : List Char)
  /-- A read of capture group `index`, which took no part in its match. -/
  | noGroup (index : Nat)
  /-- A step of the 32-bit bracket counter past its range, upwards when `up`. -/
  | overflow (up : Bool)

/-- The characters of `cs` that fit in `n` bytes. -/
def bytesPrefix : Nat → List Char → List Char
  | _, [] => []
  | n, c :: rest => if c.utf8Size ≤ n then c :: bytesPrefix (n - c.utf8Size) rest else []

/-- A text as a fault message quotes it: its first 256 bytes, cut back to a character boundary,
then `[...]` when there is more. -/
def quotedText (text : List Char) : String :=
  let shown := bytesPrefix 256 text
  "`" ++ String.ofList shown ++ "`" ++ if shown.length < text.length then "[...]" else ""

/-- The character of `cs` (whose first byte is at offset `start`) that holds byte `i`, quoted,
with the range of its bytes. -/
def charAround : List Char → Nat → Nat → String
  | [], _, _ => ""
  | c :: rest, start, i =>
    if i < start + c.utf8Size then
      "'" ++ Json.showChar c ++ "' (bytes " ++ Json.natText start ++ ".." ++
        Json.natText (start + c.utf8Size) ++ ")"
    else charAround rest (start + c.utf8Size) i

/-- The message of a fault. -/
def Fault.message : Fault → String
  | .outOfBounds i text =>
    "byte index " ++ Json.natText i ++ " is out of bounds of " ++ quotedText text
  | .reversed lo hi text =>
    "begin <= end (" ++ Json.natText lo ++ " <= " ++ Json.natText hi ++ ") when slicing " ++
      quotedText text
  | .insideChar i text =>
    "byte index " ++ Json.natText i ++ " is not a char boundary; it is inside " ++
      charAround text 0 i ++ " of " ++ quotedText text
  | .noGroup i => "no group at index '" ++ Json.natText i ++ "'"
  | .overflow up => if up then "attempt to add with overflow" else "attempt to subtract with overflow"

/-- A header that could not be read at all: the reader faulted on the header `sourceId`. -/
inductive ParseError where
  | internal (sourceId message : String)

/-- The text of a parse error. -/
def ParseError.message : ParseError → String
  | .internal sourceId message => "Failed to parse header '" ++ sourceId ++ "': " ++ message

/-! ## Cuts at byte offsets -/

/-- The number of bytes of the UTF-8 encoding of `cs`. -/
def byteLength : List Char → Nat
  | [] => 0
  | c :: rest => byteLength rest + c.utf8Size

/-- The characters of `cs` before byte offset `n`, when `n` falls on a character boundary. -/
def takeBytes : List Char → Nat → Option (List Char)
  | _, 0 => some []
  | [], _ + 1 => none
  | c :: rest, n + 1 =>
    if c.utf8Size ≤ n + 1 then (takeBytes rest (n + 1 - c.utf8Size)).map (c :: ·) else none

/-- The text from byte `lo` to byte `hi` of `cs`, cut as a string is cut: both offsets must lie
within the text, `lo` not after `hi`, and both on character boundaries, checked in that
order. -/
def slice (cs : List Char) (lo hi : Nat) : Except Fault (List Char) :=
  let size := byteLength cs
  if size < lo then .error (.outOfBounds lo cs)
  else if size < hi then .error (.outOfBounds hi cs)
  else if hi < lo then .error (.reversed lo hi cs)
  else
    match dropBytes cs lo with
    | none => .error (.insideChar lo cs)
    | some rest =>
      match takeBytes rest (hi - lo) with
      | none => .error (.insideChar hi cs)
      | some part => .ok part

/-- The byte offset of each character of `cs`, the first one at `start`. -/
def charIndices : List Char → Nat → List (Nat × Char)
  | [], _ => []
  | c :: rest, i => (i, c) :: charIndices rest (i + c.utf8Size)

/-- The byte offset of the first `x` in `cs`. -/
def byteIndex (x : Char) : List Char → Option Nat
  | [] => none
  | c :: rest => if c = x then some 0 else (byteIndex x rest).map (c.utf8Size + ·)

/-! ## Matches and their capture groups -/

/-- The capture groups of one match of a pattern, group 0 being the whole match: the text of
each, or `none` for a group that took no part in the match. -/
structure Captures where
  groups : List (Option (List Char))

namespace Captures

/-- Whether group `i` took part in the match. -/
def has (caps : Captures) (i : Nat) : Bool :=
  match caps.groups[i]? with
  | some (some _) => true
  | _ => false

/-- The text of group `i`; reading a group that took no part in the match is a fault. -/
def get (caps : Captures) (i : Nat) : Except Fault (List Char) :=
  match caps.groups[i]? with
  | some (some text) => .ok text
  | _ => .error (.noGroup i)

end Captures

/-- A match of a pattern where it stands: the byte offsets of its start and its end, and its
capture groups. -/
structure Located where
  start : Nat
  stop : Nat
  caps : Captures

/-- The matches that `find` lists in `cs`, leftmost first, at byte offsets: group 0 is the text a
match spans, and `groups` gives the others from what `find` makes of the match. -/
def locate {α : Type} (find : Option Char → List Char → Option (α × Nat))
    (groups : α → List (Option (List Char))) (cs : List Char) : List Located :=
  (occurrences find none 0 cs).map fun (a, pos, n) =>
    { start := byteLength (cs.take pos), stop := byteLength (cs.take (pos + n)),
      caps := ⟨some ((cs.drop pos).take n) :: groups a⟩ }

/-! ## Library names and constants -/

/-- The library name for a header file name: the name cut at its byte length less that of a
final `.hpp` or `.h`, found in any letter case. -/
def cutLibraryName (sourceId : String) : Except Fault String :=
  let cs := sourceId.toList
  let lower := String.ofList (cs.map Char.toLower)
  match [".hpp", ".h"].find? (lower.endsWith ·) with
  | some ext => String.ofList <$> slice cs 0 (byteLength cs - ext.utf8ByteSize)
  | none => pure sourceId

/-- The capture groups of the macro pattern on a line: the whole line, the name, `(` when it
follows the name directly, and the rest of the line. -/
def defineCaptures (line : List Char) : Option Captures :=
  (defineMatch line).map fun (name, paren, rest) =>
    ⟨[some line, some name, if paren then some ['('] else none, some rest]⟩

/-- What a macro line contributes, read from its capture groups: nothing, a constant, or a
warning. -/
def defineOfCaptures (caps : Captures) : Except Fault (Option (Except Warning Constant)) := do
  let name ← caps.get 1
  if caps.has 2 || isIncludeGuard name then pure none
  else
    let value := trimChars (← caps.get 3)
    if value.isEmpty then pure none
    else if value.getLast? = some '\\' then
      pure (some (.error (.multiLineMacro (String.ofList name))))
    else
      let v := String.ofList value
      pure (some (.ok { name := String.ofList name, value := v, type := TypeName.ofLiteral v }))

/-- The constants declared by macros, and the warnings about skipped macros, in line order. -/
def parseDefines (text : List Char) : Except Fault (List Constant × List Warning) := do
  let found ← ((text.splitOn '\n').filterMap defineCaptures).mapM defineOfCaptures
  let found := found.filterMap id
  pure (found.filterMap fun r => match r with | .ok c => some c | .error _ => none,
    found.filterMap fun r => match r with | .ok _ => none | .error w => some w)

/-- The constant a constant global declares, read from its capture groups: the name, the
value, then the type word. -/
def constantOfCaptures (caps : Captures) : Except Fault Constant := do
  let name ← caps.get 2
  let value ← caps.get 3
  let type ← caps.get 1
  pure (constantOf type name value)

/-- The constant globals declared in a text. -/
def parseConstGlobals (text : List Char) : Except Fault (List Constant) :=
  (locate constGlobalAt (fun (type, name, value) => [some type, some name, some value]) text).mapM
    fun m => constantOfCaptures m.caps

/-! ## Prototypes -/

/-- The byte offset where the name of a head starts: just after its last character that cannot
stand in a name, or 0 when there is none. -/
def nameStart (head : List Char) : Nat :=
  match (charIndices head 0).reverse.find? (fun (_, c) => !isNameChar c) with
  | some (i, c) => i + c.utf8Size
  | none => 0

/-- Splits a prototype's head: the name is cut off the trimmed head at the byte offset where it
starts. -/
def cutHead (head : List Char) : Except Fault Head := do
  let head := trimChars head
  if (wordsOf head).any (fun w => startsWith w "operator") then pure .skip
  else
    let start := nameStart head
    let name ← slice head start (byteLength head)
    let before ← slice head 0 start
    pure (Head.ofCut before name)

/-- What a prototype match yields, read from its capture groups: the whole match, the head,
and the parameter text. -/
def prototypeOfCaptures (caps : Captures) : Except Fault (Option (Except String Prototype)) := do
  let fragment := String.ofList (trimChars (← caps.get 0))
  match ← cutHead (← caps.get 1) with
  | .skip => pure none
  | .malformed => pure (some (.error fragment))
  | .decl returnPart name =>
    pure (some (.ok { returnPart, name, params := String.ofList (← caps.get 2), fragment }))

/-- The capture groups of the prototypes of a text, looked for at line starts (`atLineStart`)
or anywhere. -/
def prototypeCaptures (atLineStart : Bool) (text : List Char) : List Captures :=
  if atLineStart then
    (lineMatches text).map fun (head, params, whole) => ⟨[some whole, some head, some params]⟩
  else (locate memberMatch (fun (head, params) => [some head, some params]) text).map (·.caps)

/-- The prototypes of a text, each a prototype or the trimmed fragment of one whose name cannot
be read. -/
def scanPrototypesAt (atLineStart : Bool) (text : List Char) :
    Except Fault (List (Except String Prototype)) := do
  let found ← (prototypeCaptures atLineStart text).mapM prototypeOfCaptures
  pure (found.filterMap id)

/-! ## Parameters -/

/-- Feeds one character to a bracket counter of 32 bits: a fault where the depth would leave
the counter's range. -/
def Nesting.feed32 (st : Nesting) (c : Char) : Except Fault (Nesting × Bool) :=
  let r := st.feed c
  if 2147483647 < r.1.depth then .error (.overflow true)
  else if r.1.depth < -2147483648 then .error (.overflow false)
  else .ok r

/-- The pieces of `cs` between top-level commas, each trimmed, split with a 32-bit counter;
`cur` holds the current piece, last character first. -/
def splitPieces : Nesting → List Char → List Char → Except Fault (List (List Char))
  | _, cur, [] => pure [trimChars cur.reverse]
  | st, cur, c :: rest => do
    let (st', top) ← st.feed32 c
    if top ∧ c = ',' then (trimChars cur.reverse :: ·) <$> splitPieces st' [] rest
    else splitPieces st' (c :: cur) rest

/-- The non-empty trimmed pieces of a parameter list between top-level commas. -/
def splitListAt (s : String) : Except Fault (List String) := do
  let pieces ← splitPieces {} [] s.toList
  pure ((pieces.filter (!·.isEmpty)).map String.ofList)

/-- The byte offset of the first top-level `=` in `cs`, where the first character of `cs` is at
byte `i`, and the state of the 32-bit counter after all of `cs`. -/
def findEquals : Nesting → Nat → Option Nat → List Char → Except Fault (Option Nat × Nesting)
  | st, _, found, [] => pure (found, st)
  | st, i, found, c :: rest => do
    let (st', top) ← st.feed32 c
    findEquals st' (i + c.utf8Size) (if found.isNone ∧ top ∧ c = '=' then some i else found) rest

/-- Splits a parameter into its declaration and its default value, both trimmed, cut before and
after the byte offset of its first top-level `=`. -/
def cutDefault (part : List Char) :
    Except Fault (Except ParamFault (List Char × Option (List Char))) := do
  let (found, st) ← findEquals {} 0 none part
  if !st.isBalanced then pure (.error .unbalanced)
  else
    match found with
    | some i =>
      let d := trimChars (← slice part (i + 1) (byteLength part))
      if d.isEmpty then pure (.error .emptyDefault)
      else pure (.ok (trimChars (← slice part 0 i), some d))
    | none => pure (.ok (trimChars part, none))

/-- The identifier a token names and whether it carries an array suffix, cut before the byte
offset of its `[`. -/
def cutNameCandidate (token : List Char) : Except Fault (Option (List Char × Bool)) :=
  match byteIndex '[' token with
  | some bracket =>
    if token.getLast? = some ']' then do
      let ident ← slice token 0 bracket
      pure (if isIdentifier ident then some (ident, true) else none)
    else pure none
  | none => pure (if isIdentifier token then some (token, false) else none)

/-- Searches the tokens, given last first, for the rightmost name that follows a type. -/
def findNameAt : List (List Char) → Except Fault (Option (List Char × List (List Char) × Bool))
  | [] => pure none
  | t :: before => do
    match ← cutNameCandidate t with
    | some (ident, isArray) =>
      if reservedWords.contains (String.ofList ident) || !namesType before.reverse then
        findNameAt before
      else pure (some (ident, before.reverse, isArray))
    | none => findNameAt before

/-- Reads one parameter; `index` is its position in the list, used for a missing name. -/
def parseParameter (part : List Char) (index : Nat) :
    Except Fault (Except ParamFault Parameter) := do
  if containsText part "..." then pure (.error .variadic)
  else
    match ← cutDefault part with
    | .error fault => pure (.error fault)
    | .ok (decl, defaultValue) =>
      let tokens := declTokens decl
      let found ← findNameAt tokens.reverse
      let (name, typeText) := match found with
        | some (ident, before, isArray) =>
          (String.ofList ident, joinTokens before ++ (if isArray then " *" else ""))
        | none => ("arg" ++ toString index, joinTokens tokens)
      if isBlankText typeText then pure (.error .missingType)
      else
        pure (.ok
          { name, type := TypeName.resolveDeclared typeText,
            defaultValue := defaultValue.map String.ofList })

/-- The parameters of a list of `function`, and a warning for each piece that could not be
read, both in list order. -/
def parseParameters (text function : String) : Except Fault (List Parameter × List Warning) := do
  let t := trim text
  let pieces ← if t.isEmpty || t == "void" then pure []
    else do
      let parts ← splitListAt t
      parts.zipIdx.mapM fun (part, i) => (part, ·) <$> parseParameter part.toList i
  pure (pieces.foldr (gatherPiece function) ([], []))

/-! ## Classes and free functions -/

/-- The byte offset of the `}` that closes the block whose `{` stands at byte offset `start` of
`cs`: the text is cut from `start` on, and the brace scanner counts bytes from there. -/
def matchingBrace (cs : List Char) (start : Nat) : Except Fault (Option Nat) := do
  let block ← slice cs start (byteLength cs)
  pure ((closingFrom Char.utf8Size none 0 0 block).map (start + ·))

/-- The public sections of a class body, cut at the byte offsets of its access labels: the
whole body when it has no label, and otherwise the text after each `public:` up to the next
label or the end. -/
def cutPublicSections (body : List Char) : Except Fault (List (List Char)) := do
  let labels := locate accessLabelAt (fun word => [some word.toList]) body
  if labels.isEmpty then pure [body]
  else
    let ends := (labels.drop 1).map (·.start) ++ [byteLength body]
    let sections ← (labels.zip ends).mapM fun (label, stop) => do
      if (← label.caps.get 1) == "public".toList then some <$> slice body label.stop stop
      else pure none
    pure (sections.filterMap id)

/-- The members read from one public section of class `cls`, and the warnings. -/
def parseSection (cls : String) (part : List Char) :
    Except Fault (List (Bool × FunctionDecl) × List Warning) := do
  let found ← scanPrototypesAt false part
  let scanWarnings := (malformedOf found).map Warning.malformedDeclaration
  let results ← (prototypesOf found).mapM fun p => memberOf cls p <$> parseParameters p.params p.name
  pure (results.flatMap (·.1), scanWarnings ++ results.flatMap (·.2))

/-- Reads the class whose head matched at `m` in `cs`: its body is cut between the byte after
the head's `{` and the `}` that closes it. -/
def parseClass (cs : List Char) (m : Located) : Except Fault ClassReading :=
  match m.caps.groups[1]? with
  | some (some name) => do
    let cls := String.ofList name
    let opening := m.stop - 1
    match ← matchingBrace cs opening with
    | none => pure { decl := none, span := none, warnings := [.unterminatedClass cls] }
    | some close =>
      let body := flattenFrom 0 (cutFrom {} (← slice cs (opening + 1) close))
      let results ← (← cutPublicSections body).mapM (parseSection cls)
      pure
        { decl := classDeclOf cls (results.flatMap (·.1)), span := some (m.start, close + 1),
          warnings := results.flatMap (·.2) }
  | _ => pure { decl := none, span := none, warnings := [] }

/-- The classes of a text with members, the byte ranges of text taken by classes, and the
warnings, all in text order. -/
def parseClasses (text : List Char) :
    Except Fault (List ClassDecl × List (Nat × Nat) × List Warning) := do
  let found ← (locate classHeadAt (fun head => [some head.name.toList]) text).mapM
    (parseClass text)
  pure (found.filterMap (·.decl), found.filterMap (·.span), found.flatMap (·.warnings))

/-- The free functions of a text outside classes, and the warnings, in text order. -/
def parseFunctions (text : List Char) : Except Fault (List FunctionDecl × List Warning) := do
  let found ← scanPrototypesAt true text
  let scanWarnings := (malformedOf found).map Warning.malformedDeclaration
  let results ← (prototypesOf found).mapM fun p =>
    if p.returnPart.isEmpty then pure ([], [.malformedDeclaration p.fragment])
    else do
      let (params, ws) ← parseParameters p.params p.name
      pure ([FunctionDecl.free p.name (TypeName.resolveDeclared p.returnPart) params], ws)
  pure (results.flatMap (·.1), scanWarnings ++ results.flatMap (·.2))

/-! ## The whole reading -/

/-- Reads a header at byte offsets, stopping at the first fault. -/
def parseText (content : List Char) (sourceId : String) : Except Fault Reading := do
  let clean := eraseFrom .code content
  let name ← cutLibraryName sourceId
  let (defines, macroWarnings) ← parseDefines clean
  let globals ← parseConstGlobals clean
  let (classes, spans, classWarnings) ← parseClasses clean
  let (functions, functionWarnings) ← parseFunctions (blankFrom Char.utf8Size spans 0 clean)
  let library := { Library.named name ("#include <" ++ sourceId ++ ">") with
    constants := defines ++ globals, functions, classes }
  pure
    { library,
      warnings := macroWarnings ++ classWarnings ++ functionWarnings ++
        library.issues.map .advisory }

/-- Reads a header, known by its file name `sourceId`, into a library descriptor; a fault of the
reader gives a parse error instead. -/
def parse (content sourceId : String) : Except ParseError Reading :=
  match parseText content.toList sourceId with
  | .ok r => .ok r
  | .error fault => .error (.internal sourceId fault.message)

end Breadboard.Header
