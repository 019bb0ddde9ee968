/-!
# Compiler options

How the generated sketch looks: the comment lines at its top (written after `// `), the
indentation of statements, and the placeholder comment of an empty `setup` or `loop`
body. A header comment given as text is split into lines at `\n` or `\r\n`, with no empty
line after a final line ending; an empty text gives no header at all.
-/

namespace Breadboard.Compiler

/-- Formatting options of the compiler. -/
structure Options where
  /-- Comment lines at the top of the sketch, without the `// `. -/
  headerComment : List String := ["Generated by sketchflow"]
  /-- Indentation of statements inside `setup` and `loop`. -/
  indent : String := "  "
  setupPlaceholder : String := "// Add setup code here"
  loopPlaceholder : String := "// Add loop code here"
  deriving DecidableEq, Repr

/-- The lines of a text, with `cur` holding the current line last character first: split
after each `\n`, which is dropped together with a `\r` right before it. -/
def linesFrom (cur : List Char) : List Char → List (List Char)
  | [] => if cur.isEmpty then [] else [cur.reverse]
  | c :: rest =>
    if c = '\n' then
      (if cur.head? = some '\r' then cur.tail else cur).reverse :: linesFrom [] rest
    else linesFrom (c :: cur) rest

/-- The options with the header comment taken from a text, one line per comment line. -/
def Options.withHeader (o : Options) (text : String) : Options :=
  { o with headerComment := (linesFrom [] text.toList).map String.ofList }

end Breadboard.Compiler
