import Breadboard.Library.Basic
/-!
# Header warnings

A non-fatal problem found while reading a header. The offending piece is skipped and the
rest of the header is still read.
-/

namespace Breadboard.Header

/-- Why one parameter of a declaration could not be read. -/
inductive ParamFault where
  | variadic
  | unbalanced
  | emptyDefault
  | missingType
  deriving DecidableEq, Repr

/-- The reason given for a parameter fault. -/
def ParamFault.reason : ParamFault → String
  | .variadic => "variadic parameters are not supported"
  | .unbalanced => "unbalanced brackets"
  | .emptyDefault => "missing default value after '='"
  | .missingType => "missing type"

/-- A warning about a header. -/
inductive Warning where
  /-- A macro continued over several lines, which is skipped. -/
  | multiLineMacro (name : String)
  /-- A declaration whose name or return type could not be read. -/
  | malformedDeclaration (fragment : String)
  /-- A parameter of `function` that could not be read. -/
  | malformedParameter (function fragment : String) (fault : ParamFault)
  /-- A class whose body never closes. -/
  | unterminatedClass (name : String)
  /-- An advisory finding about the resulting library. -/
  | advisory (issue : Library.Issue)
  deriving DecidableEq, Repr

namespace Warning

/-- The name of the warning's kind. -/
def kind : Warning → String
  | .multiLineMacro _ => "MultiLineMacro"
  | .malformedDeclaration _ => "MalformedDeclaration"
  | .malformedParameter .. => "MalformedParameter"
  | .unterminatedClass _ => "UnterminatedClass"
  | .advisory _ => "Advisory"

/-- The text of the warning. -/
def message : Warning → String
  | .multiLineMacro name => "Skipped multi-line macro '" ++ name ++ "'"
  | .malformedDeclaration fragment => "Could not parse declaration: " ++ fragment
  | .malformedParameter function fragment fault =>
    "Could not parse parameter '" ++ fragment ++ "' of '" ++ function ++ "': " ++ fault.reason
  | .unterminatedClass name => "Class '" ++ name ++ "' has an unterminated body and was skipped"
  | .advisory issue => issue.message

end Warning

end Breadboard.Header
