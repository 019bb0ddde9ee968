import Breadboard.Text.WordChar
/-!
# Removing pattern matches from a text

`removeMatches` deletes, from left to right, every non-overlapping occurrence of a pattern
that a matcher recognises at a position. The matcher sees the character before the
position (for word boundaries) and the rest of the text, and answers with the length of
the occurrence starting there, `0` for none. After an occurrence the scan resumes right
behind it, so occurrences never overlap and the leftmost one always wins.
-/

namespace Breadboard.Text

/-- Deletes every occurrence found by `matchLen`, scanning `cs` from the left; `prev` is the
character before `cs`, if any. -/
def removeMatches (matchLen : Option Char → List Char → Nat) (prev : Option Char)
    (cs : List Char) : List Char :=
  match cs with
  | [] => []
  | c :: rest =>
    let n := matchLen prev (c :: rest)
    if h : n = 0 then c :: removeMatches matchLen (some c) rest
    else removeMatches matchLen ((c :: rest)[n - 1]?) ((c :: rest).drop n)
termination_by cs.length
decreasing_by
  · simp only [List.length_cons]; omega
  · simp only [List.length_drop, List.length_cons]; omega

/-- Every occurrence that `find` recognises in `cs`, leftmost first and never overlapping:
what `find` reports, where the occurrence starts (counting from `pos`) and its length.
`prev` is the character before `cs`. An occurrence of length zero is not counted, and the
scan then moves on by one character. -/
def occurrences {α : Type} (find : Option Char → List Char → Option (α × Nat))
    (prev : Option Char) (pos : Nat) (cs : List Char) : List (α × Nat × Nat) :=
  match cs with
  | [] => []
  | c :: rest =>
    match find prev (c :: rest) with
    | some (a, n) =>
      if h : 0 < n then
        (a, pos, n) :: occurrences find ((c :: rest)[n - 1]?) (pos + n) ((c :: rest).drop n)
      else occurrences find (some c) (pos + 1) rest
    | none => occurrences find (some c) (pos + 1) rest
termination_by cs.length
decreasing_by
  · simp only [List.length_drop, List.length_cons]; omega
  · simp only [List.length_cons]; omega
  · simp only [List.length_cons]; omega

/-- The characters of `cs` up to the first one outside the class, and the rest. -/
def spanClass (p : Char → Bool) (cs : List Char) : List Char × List Char :=
  (cs.takeWhile p, cs.dropWhile p)

/-- Whether `cs` starts with the characters of `s`. -/
def startsWith (cs : List Char) (s : String) : Bool :=
  s.toList.isPrefixOf cs

/-- Whether the characters of `s` occur in `cs` as a contiguous piece. -/
def containsText : List Char → String → Bool
  | [], s => s.isEmpty
  | c :: rest, s => startsWith (c :: rest) s || containsText rest s

end Breadboard.Text
