import Breadboard.Header.Comments
import Breadboard.Header.Macro
import Breadboard.Header.Class
/-!
# Reading a header into a library descriptor

The whole reading of a header: comments are erased; macros and constant globals give the
constants; classes give the classes; the text outside classes gives the free functions.
The library is named after the header's file name without `.h` or `.hpp`, and includes it
with `#include <…>`. Warnings come in this order: macros, classes, free functions, then
the advisory findings about the library.
-/

namespace Breadboard.Header

open Text

/-- A library read from a header, with the warnings about what was skipped. -/
structure Reading where
  library : Library
  warnings : List Warning

/-- The free functions of a text outside classes, and the warnings, in text order. -/
def readFunctions (text : List Char) : List FunctionDecl × List Warning :=
  let found := scanPrototypes true text
  let scanWarnings := (malformedOf found).map Warning.malformedDeclaration
  let function (p : Prototype) : List FunctionDecl × List Warning :=
    if p.returnPart.isEmpty then ([], [.malformedDeclaration p.fragment])
    else
      let (params, ws) := readParameters p.params p.name
      ([FunctionDecl.free p.name (TypeName.resolveDeclared p.returnPart) params], ws)
  let results := (prototypesOf found).map function
  (results.flatMap (·.1), scanWarnings ++ results.flatMap (·.2))

/-- The library name for a header file name: without a final `.hpp` or `.h`, in any
letter case. -/
def libraryName (sourceId : String) : String :=
  let cs := sourceId.toList
  let lower := String.ofList (cs.map Char.toLower)
  if lower.endsWith ".hpp" then String.ofList (cs.take (cs.length - 4))
  else if lower.endsWith ".h" then String.ofList (cs.take (cs.length - 2))
  else sourceId

/-- Reads a header, known by its file name `sourceId`, into a library descriptor. -/
def read (content sourceId : String) : Reading :=
  let clean := eraseFrom .code content.toList
  let (defines, macroWarnings) := readDefines clean
  let (classes, spans, classWarnings) := readClasses clean
  let (functions, functionWarnings) := readFunctions (blankFrom (fun _ => 1) spans 0 clean)
  let library := { Library.named (libraryName sourceId) ("#include <" ++ sourceId ++ ">") with
    constants := defines ++ readConstGlobals clean, functions, classes }
  { library,
    warnings := macroWarnings ++ classWarnings ++ functionWarnings ++
      library.issues.map .advisory }

end Breadboard.Header
