import Breadboard.Text.Blank
/-!
# Braces in header text

Helpers on the brace structure of a header, none of which knows the C grammar:

* `cutInitializers` drops constructor initializer lists, so `Servo() : pin_(0) {}` reads
  as `Servo() {}`;
* `flattenBlocks` replaces each outermost brace block by `;`, so
  `int read() { return x; }` reads as `int read() ;`;
* `closingBrace` finds the brace that closes the one at a byte offset, skipping literals;
* `blankOut` turns the characters in given byte ranges into spaces, keeping newlines.
-/

namespace Breadboard.Header

/-- Counters of the initializer-list cutter. -/
structure CutState where
  /-- Open braces. -/
  braces : Nat := 0
  /-- Open parentheses. -/
  parens : Nat := 0
  /-- Only blanks since a `)` that closed a parameter list at the top level. -/
  afterParams : Bool := false
  /-- Inside an initializer list. -/
  inList : Bool := false

/-- The characters kept from `cs` by the initializer-list cutter in state `st`.

A list starts at a single `:` (not `::`) that follows, across blanks only, a `)` closing a
parenthesis group at brace depth zero, and runs up to the `{` or `;` at parenthesis depth
zero that ends it; that `{` or `;` is kept. -/
def cutFrom : CutState → List Char → List Char
  | _, [] => []
  | st, c :: rest =>
    if st.inList then
      if c = '(' then cutFrom { st with parens := st.parens + 1 } rest
      else if c = ')' then cutFrom { st with parens := st.parens - 1 } rest
      else if (c = '{' ∨ c = ';') ∧ st.parens = 0 then
        let braces := if c = '{' then st.braces + 1 else st.braces
        c :: cutFrom { st with inList := false, braces := braces } rest
      else cutFrom st rest
    else if c = '{' then
      keep { st with braces := st.braces + 1 } c rest
    else if c = '}' then
      keep { st with braces := st.braces - 1 } c rest
    else if c = '(' ∧ st.braces = 0 then
      keep { st with parens := st.parens + 1 } c rest
    else if c = ')' ∧ st.braces = 0 then
      if st.parens - 1 = 0 then c :: cutFrom { st with parens := 0, afterParams := true } rest
      else keep { st with parens := st.parens - 1 } c rest
    else if c = ':' ∧ st.braces = 0 ∧ st.parens = 0 ∧ st.afterParams ∧
        rest.head? ≠ some ':' then
      cutFrom { st with afterParams := false, inList := true } rest
    else keep st c rest
where
  /-- Keeps `c`; a character other than a blank ends the stretch after a parameter list. -/
  keep (st : CutState) (c : Char) (rest : List Char) : List Char :=
    c :: cutFrom { st with afterParams := st.afterParams && Text.isBlank c } rest

/-- The text with its constructor initializer lists cut out. -/
def cutInitializers (s : String) : String :=
  String.ofList (cutFrom {} s.toList)

/-- The characters of `cs` outside brace blocks, each outermost block replaced by `;`,
when `depth` blocks are open. -/
def flattenFrom : Nat → List Char → List Char
  | _, [] => []
  | depth, c :: rest =>
    if c = '{' then
      if depth = 0 then ';' :: flattenFrom 1 rest else flattenFrom (depth + 1) rest
    else if c = '}' then flattenFrom (depth - 1) rest
    else if depth = 0 then c :: flattenFrom 0 rest
    else flattenFrom depth rest

/-- The text with every outermost brace block replaced by `;`. -/
def flattenBlocks (s : String) : String :=
  String.ofList (flattenFrom 0 s.toList)

/-- Where the brace scanner stands inside a literal: its quote and whether the previous
character was an escaping backslash. -/
structure Literal where
  quote : Char
  escaped : Bool

/-- The offset, counted from `offset` in units of `width`, of the first `}` that brings the
brace depth from `depth` to zero (a `}` at depth zero counts too), skipping literals. -/
def closingFrom (width : Char → Nat) : Option Literal → Nat → Nat → List Char → Option Nat
  | _, _, _, [] => none
  | some lit, depth, offset, c :: rest =>
    let next :=
      if lit.escaped then some { lit with escaped := false }
      else if c = '\\' then some { lit with escaped := true }
      else if c = lit.quote then none
      else some lit
    closingFrom width next depth (offset + width c) rest
  | none, depth, offset, c :: rest =>
    if c = '"' ∨ c = '\'' then
      closingFrom width (some ⟨c, false⟩) depth (offset + width c) rest
    else if c = '{' then closingFrom width none (depth + 1) (offset + width c) rest
    else if c = '}' then
      if depth - 1 = 0 then some offset
      else closingFrom width none (depth - 1) (offset + width c) rest
    else closingFrom width none depth (offset + width c) rest

/-- The number of characters from the start of `cs` (a `{`) to the `}` that closes it. -/
def closingIndex (cs : List Char) : Option Nat :=
  closingFrom (fun _ => 1) none 0 0 cs

/-- The characters of `cs` from byte offset `n` on, when `n` falls on a character
boundary. -/
def dropBytes : List Char → Nat → Option (List Char)
  | cs, 0 => some cs
  | [], _ + 1 => none
  | c :: rest, n + 1 => if c.utf8Size ≤ n + 1 then dropBytes rest (n + 1 - c.utf8Size) else none

/-- The byte offset of the `}` closing the block that starts at byte offset `start`, with
braces inside string and character literals ignored; `none` when the block never closes
or `start` is not a character boundary. -/
def closingBrace (s : String) (start : Nat) : Option Nat :=
  (dropBytes s.toList start).bind fun cs => (closingFrom Char.utf8Size none 0 0 cs).map (start + ·)

/-- The characters of `cs`, whose first one is at offset `pos` in units of `width`, with
every character other than a newline that starts inside one of the half-open ranges turned
into a space. -/
def blankFrom (width : Char → Nat) (ranges : List (Nat × Nat)) : Nat → List Char → List Char
  | _, [] => []
  | pos, c :: rest =>
    let hit := c ≠ '\n' ∧ ranges.any (fun r => r.1 ≤ pos ∧ pos < r.2)
    (if hit then ' ' else c) :: blankFrom width ranges (pos + width c) rest

/-- The text with the characters in the given half-open byte ranges blanked out; newlines
stay, so line numbers do not move. -/
def blankOut (s : String) (ranges : List (Nat × Nat)) : String :=
  String.ofList (blankFrom Char.utf8Size ranges 0 s.toList)

end Breadboard.Header
