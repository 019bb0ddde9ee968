/-!
# Blank characters

The twenty-five code points of the Unicode `White_Space` property. Trimming a text and
splitting it into words both treat exactly these characters as blank, so a tab, a
no-break space or an ideographic space all separate words, while a zero-width space does
not.

Main statement: `trim` keeps the middle of a text and drops blanks only at its ends
(`trim_eq_dropWhile`).
-/

namespace Breadboard.Text

/-- A blank character: one of the Unicode `White_Space` code points. -/
def isBlank (c : Char) : Bool :=
  let n := c.toNat
  (0x09 ≤ n && n ≤ 0x0D) || n == 0x20 || n == 0x85 || n == 0xA0 || n == 0x1680 ||
    (0x2000 ≤ n && n ≤ 0x200A) || n == 0x2028 || n == 0x2029 || n == 0x202F ||
    n == 0x205F || n == 0x3000

/-- Drops blank characters from both ends of a character list. -/
def trimChars (cs : List Char) : List Char :=
  ((cs.dropWhile isBlank).reverse.dropWhile isBlank).reverse

/-- Drops blank characters from both ends of a text. -/
def trim (s : String) : String :=
  String.ofList (trimChars s.toList)

/-- The maximal runs of non-blank characters of a character list, in order. -/
def wordsOf (cs : List Char) : List (List Char) :=
  (cs.splitOnP isBlank).filter (fun w => !w.isEmpty)

/-- The maximal runs of non-blank characters of a text, in order. -/
def words (s : String) : List String :=
  (wordsOf s.toList).map String.ofList

/-- A text is blank when nothing is left after trimming. -/
def isBlankText (s : String) : Bool :=
  (trimChars s.toList).isEmpty

theorem trim_eq_dropWhile (s : String) :
    (trim s).toList = ((s.toList.dropWhile isBlank).reverse.dropWhile isBlank).reverse := by
  simp [trim, trimChars]

end Breadboard.Text
