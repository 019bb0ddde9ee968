import Breadboard.Library.Basic
import Breadboard.Json.Shape
/-!
# Library descriptors as JSON

A library descriptor is written as a JSON object with camel-case keys, in the order of its
fields: `name`, `displayName`, `includeStatement`, `isCore`, `category`, `functions`,
`classes`, `constants`. A function is `name`, `returnType`, `parameters`, then
`description`, `isMethod`, `className` and `category`, where the optional ones are left
out when absent; a parameter is `name`, `type` and an optional `defaultValue`; a class is
`name`, `methods`, `constructors` and an optional `description`; a constant is `name`,
`value`, `type`. Types are written with their sketch spelling. The text form is the
pretty one, indented by two spaces.

Reading takes the same keys. A library needs `name`, `displayName` and
`includeStatement`; `isCore`, `category` and the lists default to `false`, `""` and
empty. A function needs `name` and `returnType`, a parameter `name` and `type`, a class
`name`, a constant all three of its fields. Unknown keys are skipped, a repeated key is
refused.

The text itself, written and read, is the JSON text layer's, given as a parameter `J`.
-/

namespace Breadboard

open Json

/-- A value type as a JSON string. -/
def ValueType.toValue (t : ValueType) : Value := .str t.spelling

/-- An optional member, left out when absent. -/
def optionalMember (k : String) : Option String → List (String × Value)
  | some v => [(k, .str v)]
  | none => []

/-- A parameter as JSON. -/
def Parameter.toValue (p : Parameter) : Value :=
  .obj ([("name", .str p.name), ("type", p.type.toValue)] ++
    optionalMember "defaultValue" p.defaultValue)

/-- A function as JSON. -/
def FunctionDecl.toValue (f : FunctionDecl) : Value :=
  .obj ([("name", .str f.name), ("returnType", f.returnType.toValue),
    ("parameters", .arr (f.parameters.map Parameter.toValue))] ++
    optionalMember "description" f.description ++ [("isMethod", .bool f.isMethod)] ++
    optionalMember "className" f.className ++ optionalMember "category" f.category)

/-- A class as JSON. -/
def ClassDecl.toValue (c : ClassDecl) : Value :=
  .obj ([("name", .str c.name), ("methods", .arr (c.methods.map FunctionDecl.toValue)),
    ("constructors", .arr (c.constructors.map FunctionDecl.toValue))] ++
    optionalMember "description" c.description)

/-- A constant as JSON. -/
def Constant.toValue (k : Constant) : Value :=
  .obj [("name", .str k.name), ("value", .str k.value), ("type", k.type.toValue)]

/-- A library as JSON. -/
def Library.toValue (l : Library) : Value :=
  .obj [("name", .str l.name), ("displayName", .str l.displayName),
    ("includeStatement", .str l.includeStatement), ("isCore", .bool l.isCore),
    ("category", .str l.category), ("functions", .arr (l.functions.map FunctionDecl.toValue)),
    ("classes", .arr (l.classes.map ClassDecl.toValue)),
    ("constants", .arr (l.constants.map Constant.toValue))]

/-- The pretty JSON text of a library. -/
def Library.render (J : JsonText) (l : Library) : String :=
  J.pretty l.toValue

/-! ### Reading -/

/-- The shape of a value type: one of its spellings. -/
def valueTypeShape : Shape ValueType :=
  .variant (ValueType.all.map fun t => (t.spelling, t))

/-- A parameter being read. -/
structure ParameterDraft where
  name : Option String := none
  type : Option ValueType := none
  defaultValue : Option (Option String) := none

/-- The fields of a parameter. -/
def parameterFields : Fields ParameterDraft :=
  .cons ["name"] true (·.name) (fun d v => { d with name := some v }) .string <|
  .cons ["type"] true (·.type) (fun d v => { d with type := some v }) valueTypeShape <|
  .cons ["defaultValue"] false (·.defaultValue) (fun d v => { d with defaultValue := some v })
    (.option .string) .nil

/-- The shape of a parameter. -/
def parameterShape : Shape Parameter :=
  .record "Parameter" parameterFields {}
    fun d => ⟨d.name.getD "", d.type.getD .void, d.defaultValue.getD none⟩

/-- A function being read. -/
structure FunctionDraft where
  name : Option String := none
  returnType : Option ValueType := none
  parameters : Option (List Parameter) := none
  description : Option (Option String) := none
  isMethod : Option Bool := none
  className : Option (Option String) := none
  category : Option (Option String) := none

/-- The fields of a function. -/
def functionFields : Fields FunctionDraft :=
  .cons ["name"] true (·.name) (fun d v => { d with name := some v }) .string <|
  .cons ["returnType"] true (·.returnType) (fun d v => { d with returnType := some v })
    valueTypeShape <|
  .cons ["parameters"] false (·.parameters) (fun d v => { d with parameters := some v })
    (.list parameterShape) <|
  .cons ["description"] false (·.description) (fun d v => { d with description := some v })
    (.option .string) <|
  .cons ["isMethod"] false (·.isMethod) (fun d v => { d with isMethod := some v }) .bool <|
  .cons ["className"] false (·.className) (fun d v => { d with className := some v })
    (.option .string) <|
  .cons ["category"] false (·.category) (fun d v => { d with category := some v })
    (.option .string) .nil

/-- The shape of a function. -/
def functionShape : Shape FunctionDecl :=
  .record "FunctionDef" functionFields {}
    fun d => ⟨d.name.getD "", d.returnType.getD .void, d.parameters.getD [],
      d.description.getD none, d.isMethod.getD false, d.className.getD none, d.category.getD none⟩

/-- A class being read. -/
structure ClassDraft where
  name : Option String := none
  methods : Option (List FunctionDecl) := none
  constructors : Option (List FunctionDecl) := none
  description : Option (Option String) := none

/-- The fields of a class. -/
def classFields : Fields ClassDraft :=
  .cons ["name"] true (·.name) (fun d v => { d with name := some v }) .string <|
  .cons ["methods"] false (·.methods) (fun d v => { d with methods := some v })
    (.list functionShape) <|
  .cons ["constructors"] false (·.constructors) (fun d v => { d with constructors := some v })
    (.list functionShape) <|
  .cons ["description"] false (·.description) (fun d v => { d with description := some v })
    (.option .string) .nil

/-- The shape of a class. -/
def classShape : Shape ClassDecl :=
  .record "ClassDef" classFields {}
    fun d => ⟨d.name.getD "", d.methods.getD [], d.constructors.getD [], d.description.getD none⟩

/-- A constant being read. -/
structure ConstantDraft where
  name : Option String := none
  value : Option String := none
  type : Option ValueType := none

/-- The fields of a constant. -/
def constantFields : Fields ConstantDraft :=
  .cons ["name"] true (·.name) (fun d v => { d with name := some v }) .string <|
  .cons ["value"] true (·.value) (fun d v => { d with value := some v }) .string <|
  .cons ["type"] true (·.type) (fun d v => { d with type := some v }) valueTypeShape .nil

/-- The shape of a constant. -/
def constantShape : Shape Constant :=
  .record "ConstantDef" constantFields {}
    fun d => ⟨d.name.getD "", d.value.getD "", d.type.getD .void⟩

/-- A library being read. -/
structure LibraryDraft where
  name : Option String := none
  displayName : Option String := none
  includeStatement : Option String := none
  isCore : Option Bool := none
  category : Option String := none
  functions : Option (List FunctionDecl) := none
  classes : Option (List ClassDecl) := none
  constants : Option (List Constant) := none

/-- The fields of a library. -/
def libraryFields : Fields LibraryDraft :=
  .cons ["name"] true (·.name) (fun d v => { d with name := some v }) .string <|
  .cons ["displayName"] true (·.displayName) (fun d v => { d with displayName := some v })
    .string <|
  .cons ["includeStatement"] true (·.includeStatement)
    (fun d v => { d with includeStatement := some v }) .string <|
  .cons ["isCore"] false (·.isCore) (fun d v => { d with isCore := some v }) .bool <|
  .cons ["category"] false (·.category) (fun d v => { d with category := some v }) .string <|
  .cons ["functions"] false (·.functions) (fun d v => { d with functions := some v })
    (.list functionShape) <|
  .cons ["classes"] false (·.classes) (fun d v => { d with classes := some v })
    (.list classShape) <|
  .cons ["constants"] false (·.constants) (fun d v => { d with constants := some v })
    (.list constantShape) .nil

/-- The shape of a library. -/
def libraryShape : Shape Library :=
  .record "Library" libraryFields {}
    fun d => ⟨d.name.getD "", d.displayName.getD "", d.includeStatement.getD "",
      d.isCore.getD false, d.category.getD "", d.functions.getD [], d.classes.getD [],
      d.constants.getD []⟩

/-- Reads a library from JSON text. -/
def Library.ofText (J : JsonText) (text : String) : Except J.Error Library :=
  J.decode libraryShape text

end Breadboard
