import Breadboard.ValueType.Basic
import Breadboard.Text.Blank
/-!
# Library descriptors

A library descriptor says everything the editor knows about one header: its name, the
include directive a sketch needs, its free functions, its classes with their methods and
constructors, and its constants. A method is called through its class
(`Servo.attach`), one global instance per class.
-/

namespace Breadboard

/-- A parameter of a function: its name, its type and the text of its default value. -/
structure Parameter where
  name : String
  type : ValueType
  defaultValue : Option String := none
  deriving DecidableEq, Repr, Inhabited

/-- A free function, a method or a constructor. -/
structure FunctionDecl where
  name : String
  returnType : ValueType
  parameters : List Parameter := []
  description : Option String := none
  isMethod : Bool := false
  /-- The owning class, for methods and constructors. -/
  className : Option String := none
  category : Option String := none
  deriving DecidableEq, Repr, Inhabited

/-- A class: its methods and constructors. -/
structure ClassDecl where
  name : String
  methods : List FunctionDecl := []
  constructors : List FunctionDecl := []
  description : Option String := none
  deriving DecidableEq, Repr, Inhabited

/-- A named constant with the text of its value. -/
structure Constant where
  name : String
  value : String
  type : ValueType
  deriving DecidableEq, Repr, Inhabited

/-- A library descriptor. -/
structure Library where
  name : String
  displayName : String
  /-- The directive placed at the top of a sketch, such as `#include <Servo.h>`; empty for
  none. -/
  includeStatement : String
  isCore : Bool := false
  category : String := ""
  functions : List FunctionDecl := []
  classes : List ClassDecl := []
  constants : List Constant := []
  deriving DecidableEq, Repr, Inhabited

namespace FunctionDecl

/-- A free function in the `Functions` category. -/
def free (name : String) (returnType : ValueType) (parameters : List Parameter) :
    FunctionDecl :=
  { name, returnType, parameters, category := some "Functions" }

/-- A method of a class, in the class's category. -/
def method (cls name : String) (returnType : ValueType) (parameters : List Parameter) :
    FunctionDecl :=
  { name, returnType, parameters, isMethod := true, className := some cls,
    category := some cls }

/-- A constructor of a class: named after it, returning nothing. -/
def constructor (cls : String) (parameters : List Parameter) : FunctionDecl :=
  { name := cls, returnType := .void, parameters, className := some cls,
    category := some cls }

/-- The name written at a call site: `Class.name` for a method with a known class, the
plain name otherwise. -/
def qualifiedName (f : FunctionDecl) : String :=
  match f.className, f.isMethod with
  | some cls, true => cls ++ "." ++ f.name
  | _, _ => f.name

end FunctionDecl

namespace Library

/-- An empty library in the `Custom` category, displayed under its name. -/
def named (name includeStatement : String) : Library :=
  { name, displayName := name, includeStatement, category := "Custom" }

/-- The include directive without surrounding blanks, or `none` when it is blank. -/
def directive (l : Library) : Option String :=
  let t := Text.trim l.includeStatement
  if t.isEmpty then none else some t

/-- The first free function with the given name. -/
def findFunction (l : Library) (name : String) : Option FunctionDecl :=
  l.functions.find? (·.name == name)

/-- The first class with the given name. -/
def findClass (l : Library) (name : String) : Option ClassDecl :=
  l.classes.find? (·.name == name)

/-- The free functions, then the methods of each class in order. Constructors are not
listed. -/
def allFunctions (l : Library) : List FunctionDecl :=
  l.functions ++ l.classes.flatMap (·.methods)

/-- An advisory finding about a library; it never blocks its use. -/
inductive Issue where
  | missingName
  | noFunctions
  deriving DecidableEq, Repr

/-- The text of an advisory finding. -/
def Issue.message : Issue → String
  | .missingName => "Library name is required"
  | .noFunctions => "No functions or classes found in header"

/-- The advisory findings about a library: a blank name, and having neither functions nor
classes. -/
def issues (l : Library) : List Issue :=
  (if (Text.trim l.name).isEmpty then [Issue.missingName] else []) ++
    (if l.functions.isEmpty && l.classes.isEmpty then [Issue.noFunctions] else [])

end Library

end Breadboard
