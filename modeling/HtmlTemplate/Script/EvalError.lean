import HtmlTemplate.Data.Coercion
import HtmlTemplate.Script.Parser
/-!
Why the evaluation of script text fails.
-/
namespace HtmlTemplate

/-- The failures of evaluation. The last three but one are what the built-in
functions refuse. -/
inductive EvalError where
  | malformed (error : Script.ParseError)
  | notAFunction (name : String)
  | constantAssignment (name : String)
  | invalidAssignment (property target : String)
  | digitsOutOfRange
  | invalidCount (count : Float)
  | textTooLong
  | callDepth
  deriving Repr, DecidableEq

def EvalError.message : EvalError → String
  | malformed error => error.message
  | notAFunction name => name ++ " is not a function"
  | constantAssignment name => "Assignment to constant variable '" ++ name ++ "'"
  | invalidAssignment property target => "Cannot set property '" ++ property ++ "' of " ++ target
  | digitsOutOfRange => "toFixed() digits argument must be between 0 and 100"
  | invalidCount count => "Invalid count value: " ++ Double.text count
  | textTooLong => "Invalid string length"
  | callDepth => "Maximum call stack size exceeded"

end HtmlTemplate
