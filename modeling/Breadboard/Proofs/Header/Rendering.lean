import Breadboard.Header.Read

/-!
# Headers written from declarations

The plain form in which a header declares a library, one declaration per line:

* a constant: `#define NAME VALUE`;
* a free function: `RET NAME(PARAMS);`;
* a class: `class NAME {`, one line per member (`NAME(PARAMS);` for a constructor,
  `RET NAME(PARAMS);` for a method, `public:`, `private:` or `protected:` for an access
  label), then `};`.

Types are written in their sketch spelling, a parameter as `TYPE NAME` or
`TYPE NAME = DEFAULT`, and parameters are joined by `, `. Every line ends with a newline.

`Block.WellFormed` says what keeps such a text unambiguous for the reader: names are ASCII
identifiers and no C++ keywords, a method is not named after its class, a constant is no
include guard, and values and defaults are trimmed single lines that hold no character the
reader splits declarations at. `Block.OperatorFree` says that no name read as a declaration
starts with `operator`. `expected` is the library such a header declares: its constants, its
free functions, and each class with the members declared publicly (all of them when the class
has no label).
-/

namespace Breadboard

/-- The declaration of a parameter as a header writes it: `TYPE NAME`. -/
def Parameter.declText (p : Parameter) : List Char :=
  p.type.spelling.toList ++ ' ' :: p.name.toList

/-- A parameter as a header writes it: `TYPE NAME` or `TYPE NAME = DEFAULT`. -/
def Parameter.text (p : Parameter) : List Char :=
  p.declText ++ (p.defaultValue.map fun d => " = ".toList ++ d.toList).getD []

namespace Header

open Text

/-! ## Writing a header -/

/-- A parameter list: the parameters joined by `, `. -/
def paramsText (ps : List Parameter) : List Char :=
  ", ".toList.intercalate (ps.map Parameter.text)

/-- A declaration line `RET NAME(PARAMS);`. -/
def protoText (ret : ValueType) (name : String) (ps : List Parameter) : List Char :=
  ret.spelling.toList ++ ' ' :: name.toList ++ '(' :: paramsText ps ++ [')', ';']

/-- The access a label gives the members after it. -/
inductive Access where
  | pub
  | priv
  | prot
  deriving DecidableEq, Repr

/-- The word of an access label. -/
def Access.word : Access → String
  | .pub => "public"
  | .priv => "private"
  | .prot => "protected"

/-- A line of a class body. -/
inductive Member where
  | ctor (params : List Parameter)
  | method (ret : ValueType) (name : String) (params : List Parameter)
  | label (access : Access)
  deriving Repr

/-- A declaration block of a header. -/
inductive Block where
  | define (name value : String)
  | function (ret : ValueType) (name : String) (params : List Parameter)
  | classDecl (name : String) (members : List Member)
  deriving Repr

/-- The line of a member of class `cls`. -/
def Member.text (cls : String) : Member → List Char
  | .ctor ps => cls.toList ++ '(' :: paramsText ps ++ [')', ';']
  | .method ret name ps => protoText ret name ps
  | .label a => a.word.toList ++ [':']

/-- The head line of class `cls`. -/
def classHeadText (cls : String) : List Char :=
  "class ".toList ++ cls.toList ++ [' ', '{']

/-- The head line unfolded. Stated by `rfl`: the equation that unfolding the definition asks Lean
to generate takes it many seconds. -/
theorem classHeadText_eq (cls : String) :
    classHeadText cls = "class ".toList ++ cls.toList ++ [' ', '{'] := rfl

/-- The lines of a block. -/
def Block.lines : Block → List (List Char)
  | .define name value => ["#define ".toList ++ name.toList ++ ' ' :: value.toList]
  | .function ret name ps => [protoText ret name ps]
  | .classDecl cls ms => classHeadText cls :: ms.map (Member.text cls) ++ [['}', ';']]

/-- A line of a class is its head line, the line of one of its members, or its closing line. -/
theorem Block.mem_lines_classDecl {cls : String} {ms : List Member} {l : List Char} :
    l ∈ (Block.classDecl cls ms).lines ↔
      l = classHeadText cls ∨ (∃ m ∈ ms, m.text cls = l) ∨ l = ['}', ';'] := by
  simp only [Block.lines, List.mem_cons, List.mem_append, List.mem_map, List.not_mem_nil,
    or_false, or_assoc]

/-- The text of lines, each followed by a newline. -/
def linesText (ls : List (List Char)) : List Char :=
  ls.flatMap (· ++ ['\n'])

/-- The text of a header made of the given blocks, in order. -/
def headerText (bs : List Block) : List Char :=
  linesText (bs.flatMap Block.lines)

/-! ## What a header declares -/

/-- The members declared under access `isPublic` and after it: a label sets the access of
the members that follow it. -/
def membersUnder : Bool → List Member → List Member
  | _, [] => []
  | _, .label a :: ms => membersUnder (a = .pub) ms
  | isPublic, m :: ms => if isPublic then m :: membersUnder isPublic ms else membersUnder isPublic ms

/-- Whether a member line is an access label. -/
def Member.isLabel : Member → Bool
  | .label _ => true
  | _ => false

/-- The members a class declares publicly: all of them when it has no label, else those
under a `public:` label. -/
def publicMembers (ms : List Member) : List Member :=
  if ms.any Member.isLabel then membersUnder false ms else ms

/-- The method a member of class `cls` declares, if it is one. -/
def Member.method? (cls : String) : Member → Option FunctionDecl
  | .method ret name ps => some (FunctionDecl.method cls name ret ps)
  | _ => none

/-- The constructor a member of class `cls` declares, if it is one. -/
def Member.ctor? (cls : String) : Member → Option FunctionDecl
  | .ctor ps => some (FunctionDecl.constructor cls ps)
  | _ => none

/-- The constants a block declares. -/
def Block.constants : Block → List Constant
  | .define name value => [⟨name, value, TypeName.ofLiteral value⟩]
  | _ => []

/-- The free functions a block declares. -/
def Block.functions : Block → List FunctionDecl
  | .function ret name ps => [FunctionDecl.free name ret ps]
  | _ => []

/-- The class a block declares, when it declares a method or a constructor publicly. -/
def Block.classes : Block → List ClassDecl
  | .classDecl cls ms =>
    let methods := (publicMembers ms).filterMap (Member.method? cls)
    let constructors := (publicMembers ms).filterMap (Member.ctor? cls)
    if methods.isEmpty && constructors.isEmpty then [] else [{ name := cls, methods, constructors }]
  | _ => []

/-- The library that a header made of `bs`, read from the file `sourceId`, declares. -/
def expected (bs : List Block) (sourceId : String) : Library :=
  { Library.named (libraryName sourceId) ("#include <" ++ sourceId ++ ">") with
    constants := bs.flatMap Block.constants
    functions := bs.flatMap Block.functions
    classes := bs.flatMap Block.classes }

/-! ## Well-formed headers -/

/-- The keywords of C++20. -/
def cppKeywords : List String :=
  ["alignas", "alignof", "and", "and_eq", "asm", "auto", "bitand", "bitor", "bool", "break",
    "case", "catch", "char", "char8_t", "char16_t", "char32_t", "class", "compl", "concept",
    "const", "consteval", "constexpr", "constinit", "const_cast", "continue", "co_await",
    "co_return", "co_yield", "decltype", "default", "delete", "do", "double", "dynamic_cast",
    "else", "enum", "explicit", "export", "extern", "false", "float", "for", "friend", "goto",
    "if", "inline", "int", "long", "mutable", "namespace", "new", "noexcept", "not", "not_eq",
    "nullptr", "operator", "or", "or_eq", "private", "protected", "public", "register",
    "reinterpret_cast", "requires", "return", "short", "signed", "sizeof", "static",
    "static_assert", "static_cast", "struct", "switch", "template", "this", "thread_local",
    "throw", "true", "try", "typedef", "typeid", "typename", "union", "unsigned", "using",
    "virtual", "void", "volatile", "wchar_t", "while", "xor", "xor_eq"]

/-- A name in a header: an ASCII identifier that is no C++ keyword. -/
def IsName (s : String) : Prop :=
  isIdentifier s.toList = true ∧ s ∉ cppKeywords

instance (s : String) : Decidable (IsName s) :=
  inferInstanceAs (Decidable (_ ∧ _))

/-- A value or default as a header may write it: non-empty, trimmed, on one line, with no
`;`, no brace and no comment opener. -/
def IsPlain (s : String) : Prop :=
  s ≠ "" ∧ trim s = s ∧ s.toList.all (fun c => !";{}\n".toList.contains c) = true ∧
    containsText s.toList "//" = false ∧ containsText s.toList "/*" = false

instance (s : String) : Decidable (IsPlain s) :=
  inferInstanceAs (Decidable (_ ∧ _))

/-- A default value: plain, with none of the characters that nest or separate parameters or
open a literal, no `:`, and no `...`. -/
def IsDefault (d : String) : Prop :=
  IsPlain d ∧ d.toList.all (fun c => !"()<>,\"':".toList.contains c) = true ∧
    containsText d.toList "..." = false

instance (d : String) : Decidable (IsDefault d) :=
  inferInstanceAs (Decidable (_ ∧ _))

/-- A macro value: plain, not ending in a line continuation, and holding neither `const` nor
`class`. -/
def IsValue (v : String) : Prop :=
  IsPlain v ∧ v.toList.getLast? ≠ some '\\' ∧ containsText v.toList "const" = false ∧
    containsText v.toList "class" = false

instance (v : String) : Decidable (IsValue v) :=
  inferInstanceAs (Decidable (_ ∧ _))

/-- A parameter a header can write: a name, and a default value if any. -/
def ParamOk (p : Parameter) : Prop :=
  IsName p.name ∧ ∀ d ∈ p.defaultValue, IsDefault d

instance (p : Parameter) : Decidable (ParamOk p) :=
  inferInstanceAs (Decidable (_ ∧ _))

/-- A well-formed member line of class `cls`: its parameters can be written, and a method
has a name other than its class's. -/
def Member.WellFormed (cls : String) : Member → Prop
  | .ctor ps => ∀ p ∈ ps, ParamOk p
  | .method _ name ps => IsName name ∧ name ≠ cls ∧ ∀ p ∈ ps, ParamOk p
  | .label _ => True

instance (cls : String) : DecidablePred (Member.WellFormed cls)
  | .ctor ps => inferInstanceAs (Decidable (∀ p ∈ ps, ParamOk p))
  | .method _ name ps => inferInstanceAs (Decidable (IsName name ∧ name ≠ cls ∧ ∀ p ∈ ps, ParamOk p))
  | .label _ => inferInstanceAs (Decidable True)

/-- A well-formed block: names are names, a constant is no include guard and has a value,
and every member of a class is well formed. -/
def Block.WellFormed : Block → Prop
  | .define name value =>
    IsName name ∧ name.endsWith "_H" = false ∧ name.endsWith "_H_" = false ∧ IsValue value
  | .function _ name ps => IsName name ∧ ∀ p ∈ ps, ParamOk p
  | .classDecl cls ms => IsName cls ∧ ∀ m ∈ ms, m.WellFormed cls

instance : DecidablePred Block.WellFormed
  | .define name value => inferInstanceAs (Decidable (IsName name ∧ name.endsWith "_H" = false ∧
      name.endsWith "_H_" = false ∧ IsValue value))
  | .function _ name ps => inferInstanceAs (Decidable (IsName name ∧ ∀ p ∈ ps, ParamOk p))
  | .classDecl cls ms => inferInstanceAs (Decidable (IsName cls ∧ ∀ m ∈ ms, m.WellFormed cls))

/-- The name a member of class `cls` declares: the class's own for a constructor. -/
def Member.declName (cls : String) : Member → Option String
  | .ctor _ => some cls
  | .method _ name _ => some name
  | .label _ => none

/-- No name that is read as a declaration starts with `operator`: neither a free function's
nor a publicly declared member's. -/
def Block.OperatorFree : Block → Prop
  | .define _ _ => True
  | .function _ name _ => startsWith name.toList "operator" = false
  | .classDecl cls ms =>
    ∀ m ∈ publicMembers ms, ∀ n ∈ m.declName cls, startsWith n.toList "operator" = false

instance : DecidablePred Block.OperatorFree
  | .define _ _ => inferInstanceAs (Decidable True)
  | .function _ name _ => inferInstanceAs (Decidable (startsWith name.toList "operator" = false))
  | .classDecl cls ms => inferInstanceAs (Decidable
      (∀ m ∈ publicMembers ms, ∀ n ∈ m.declName cls, startsWith n.toList "operator" = false))

end Header

end Breadboard
