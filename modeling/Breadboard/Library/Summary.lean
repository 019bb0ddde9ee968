import Breadboard.Library.Basic
/-!
# Library summaries

A readable account of a library descriptor: its name and include directive, then its
constants, free functions and classes, each list headed by its size. A function reads as
its signature, `returnType callName(type name = default, …)`.
-/

namespace Breadboard

/-- A parameter as written in a signature: `type name`, or `type name = default`. -/
def Parameter.signature (p : Parameter) : String :=
  match p.defaultValue with
  | some d => p.type.spelling ++ " " ++ p.name ++ " = " ++ d
  | none => p.type.spelling ++ " " ++ p.name

/-- A function as written in a signature: return type, call name and parameters. -/
def FunctionDecl.signature (f : FunctionDecl) : String :=
  f.returnType.spelling ++ " " ++ f.qualifiedName ++ "(" ++
    ", ".intercalate (f.parameters.map Parameter.signature) ++ ")"

/-- The lines of a class in a summary: its name with its counts, then its methods. -/
def ClassDecl.summary (c : ClassDecl) : List String :=
  ("  " ++ c.name ++ " (" ++ toString c.constructors.length ++ " constructors, " ++
    toString c.methods.length ++ " methods)") ::
  c.methods.map fun m => "    " ++ m.signature

/-- The lines of a library summary. -/
def Library.summary (l : Library) : List String :=
  ["Library: " ++ l.name ++ " (" ++ l.includeStatement ++ ")", "",
    "Constants (" ++ toString l.constants.length ++ "):"] ++
  l.constants.map (fun k => "  " ++ k.type.spelling ++ " " ++ k.name ++ " = " ++ k.value) ++
  ["", "Functions (" ++ toString l.functions.length ++ "):"] ++
  l.functions.map (fun f => "  " ++ f.signature) ++
  ["", "Classes (" ++ toString l.classes.length ++ "):"] ++
  l.classes.flatMap ClassDecl.summary

end Breadboard
