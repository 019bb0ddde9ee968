import Breadboard.Text.Blank
import Breadboard.Text.Scan
/-!
# Function prototypes in header text

A prototype is a head, a parenthesised parameter list and a `;`:
`static int clamp(int x, int lo = 0);`. The head starts with a letter, `_` or `~` and
holds no `;`, braces, parentheses, `=`, `#`, `"` or newline; it runs up to the first `(`.
The parameter list runs up to the last `)` before the next `;` or brace, and between that
`)` and the `;` may stand only blanks, `const`, `override` and `= 0`, in this order.

Free functions are looked for at line starts (after blanks and tabs); members anywhere.
Scanning goes left to right and resumes behind each prototype found.

The head splits into its name (the trailing run of ASCII letters, digits, `_` and `~`) and
its return part (the words before it, less leading `static`, `inline`, `virtual`,
`extern`, `explicit`, `constexpr` and `friend`). Operators, destructors and statements
that look like calls (`return f(x);`) are skipped; a head with no usable name is
malformed.
-/

namespace Breadboard.Header

open Text

/-- A prototype as found in the text. -/
structure Prototype where
  /-- The words of the head before the name. -/
  returnPart : String
  name : String
  /-- The text between the parentheses. -/
  params : String
  /-- The whole prototype, trimmed. -/
  fragment : String
  deriving Repr

/-- What a prototype's head amounts to. -/
inductive Head where
  /-- Not a declaration to report. -/
  | skip
  /-- A declaration whose name cannot be read. -/
  | malformed
  /-- A declaration with its return part and name. -/
  | decl (returnPart name : String)
  deriving Repr

/-- A character that may not stand in a prototype's head. -/
def breaksHead (c : Char) : Bool :=
  c == ';' || c == '{' || c == '}' || c == '(' || c == ')' || c == '=' || c == '#' ||
    c == '"' || c == '\n'

/-- A character that may start a prototype's head. -/
def startsHead (c : Char) : Bool :=
  c.isAlpha || c == '_' || c == '~'

/-- Whether `cs` is exactly a prototype's tail before its `;`: blanks, then optionally
`const`, `override` and `= 0`, each followed by blanks. -/
def isTail (cs : List Char) : Bool :=
  let skip := fun (cs : List Char) => cs.dropWhile isBlank
  let word := fun (w : String) (cs : List Char) =>
    if startsWith cs w then skip (cs.drop w.length) else cs
  let cs := word "override" (word "const" (skip cs))
  let rest :=
    if startsWith cs "=" then
      match skip (cs.drop 1) with
      | '0' :: r => some (skip r)
      | _ => none
    else some cs
  rest == some []

/-- Splits a list at its last occurrence of `x`: what comes before it and what after. -/
def splitAtLast (x : Char) (cs : List Char) : Option (List Char × List Char) :=
  let after := (cs.reverse.takeWhile (· ≠ x)).reverse
  if after.length < cs.length then some (cs.take (cs.length - after.length - 1), after)
  else none

/-- A prototype starting at the head of `cs`: its head, its parameter text and the number
of characters it spans. -/
def prototypeAt (cs : List Char) : Option (List Char × List Char × Nat) :=
  match cs with
  | c :: rest =>
    if startsHead c then
      let (mid, after) := spanClass (fun d => !breaksHead d) rest
      match after with
      | '(' :: inner =>
        let (region, stop) := spanClass (fun d => !(d == ';' || d == '{' || d == '}')) inner
        if stop.head? = some ';' then
          match splitAtLast ')' region with
          | some (params, tail) =>
            if isTail tail then some (c :: mid, params, 1 + mid.length + 1 + region.length + 1)
            else none
          | none => none
        else none
      | _ => none
    else none
  | [] => none

/-- The word that ends a statement rather than a declaration. -/
def statementWords : List String :=
  ["return", "else", "new", "delete", "throw", "case", "goto", "if", "while", "for", "switch",
    "sizeof"]

/-- Storage and linkage words dropped from the front of a return part. -/
def leadingWords : List String :=
  ["static", "inline", "virtual", "extern", "explicit", "constexpr", "friend"]

/-- A character of a declared name: an ASCII letter or digit, `_` or `~`. -/
def isNameChar (c : Char) : Bool :=
  c.isAlphanum || c == '_' || c == '~'

/-- What a trimmed head amounts to, once cut before its name into the text before the name
and the name. -/
def Head.ofCut (before name : List Char) : Head :=
  let bare := match name with
    | '~' :: r => r
    | _ => name
  if bare.isEmpty || (bare.head?.map Char.isDigit).getD false || bare.contains '~' then
    .malformed
  else if name.head? = some '~' || statementWords.contains (String.ofList name) then .skip
  else
    let words := ((wordsOf before).map String.ofList).dropWhile (leadingWords.contains ·)
    let returnPart := " ".intercalate words
    if statementWords.contains returnPart then .skip
    else .decl returnPart (String.ofList name)

/-- Splits a prototype's head into its return part and name. -/
def splitHead (head : List Char) : Head :=
  let head := trimChars head
  if (wordsOf head).any (fun w => startsWith w "operator") then .skip
  else
    let name := (head.reverse.takeWhile isNameChar).reverse
    Head.ofCut (head.take (head.length - name.length)) name

/-- What a found prototype yields: nothing, a malformed fragment, or a prototype. -/
def classify (head params whole : List Char) : Option (Except String Prototype) :=
  let fragment := String.ofList (trimChars whole)
  match splitHead head with
  | .skip => none
  | .malformed => some (.error fragment)
  | .decl returnPart name =>
    some (.ok { returnPart, name, params := String.ofList params, fragment })

/-- A prototype anywhere: what it yields, and the number of characters it spans. -/
def memberAt (_ : Option Char) (cs : List Char) :
    Option (Option (Except String Prototype) × Nat) :=
  (prototypeAt cs).map fun (head, params, n) => (classify head params (cs.take n), n)

/-- A prototype anywhere, as it matched: its head and its parameter text, and the number of
characters it spans. -/
def memberMatch (_ : Option Char) (cs : List Char) : Option ((List Char × List Char) × Nat) :=
  (prototypeAt cs).map fun (head, params, n) => ((head, params), n)

/-- Prototypes anywhere in `cs`, leftmost first and never overlapping. -/
def membersFrom (cs : List Char) : List (Except String Prototype) :=
  (occurrences memberAt none 0 cs).filterMap (·.1)

/-- The characters after the next newline of `cs`, or `none` when there is none. -/
def afterNewline : List Char → Option (List Char)
  | [] => none
  | c :: r => if c = '\n' then some r else afterNewline r

theorem length_afterNewline {cs r : List Char} (h : afterNewline cs = some r) :
    r.length < cs.length := by
  induction cs with
  | nil => simp [afterNewline] at h
  | cons c cs ih =>
    simp only [afterNewline] at h
    split at h
    · simp only [Option.some.injEq] at h
      subst h
      simp
    · have := ih h
      simp only [List.length_cons]
      omega

/-- The prototypes that start lines of `cs`, where `cs` starts a line, as they matched: the
head, the parameter text and the whole match from the line start. They come leftmost first and
never overlap; a prototype may span lines, and scanning resumes at the next line start behind
it. -/
def lineMatches (cs : List Char) : List (List Char × List Char × List Char) :=
  let (indent, body) := spanClass (fun c => c == ' ' || c == '\t') cs
  match prototypeAt body with
  | some (head, params, n) =>
    let found := (head, params, cs.take (indent.length + n))
    match h : afterNewline (cs.drop (indent.length + n)) with
    | some r =>
      have : r.length < cs.length := by
        have := length_afterNewline h
        simp only [List.length_drop] at this
        omega
      found :: lineMatches r
    | none => [found]
  | none =>
    match h : afterNewline cs with
    | some r =>
      have : r.length < cs.length := length_afterNewline h
      lineMatches r
    | none => []
termination_by cs.length

/-- What the prototypes that start lines of `cs` yield, in order. -/
def linesFrom (cs : List Char) : List (Except String Prototype) :=
  (lineMatches cs).filterMap fun (head, params, whole) => classify head params whole

/-- The prototypes among scan results. -/
def prototypesOf (found : List (Except String Prototype)) : List Prototype :=
  found.filterMap fun r => match r with | .ok p => some p | .error _ => none

/-- The fragments of malformed declarations among scan results. -/
def malformedOf (found : List (Except String Prototype)) : List String :=
  found.filterMap fun r => match r with | .ok _ => none | .error fragment => some fragment

/-- The prototypes of a text, looked for at line starts (`atLineStart`) or anywhere. Each
is a prototype or the trimmed fragment of one whose name cannot be read. -/
def scanPrototypes (atLineStart : Bool) (text : List Char) : List (Except String Prototype) :=
  if atLineStart then linesFrom text else membersFrom text

end Breadboard.Header
