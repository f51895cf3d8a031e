import HtmlTemplate.Builtin.Date
import HtmlTemplate.Builtin.Math
import HtmlTemplate.Builtin.Number
import HtmlTemplate.Builtin.Text
/-!
The groups of built-in functions that a template can ask for by name.
-/
namespace HtmlTemplate

/-- The functions of a group, if there is one of that name. -/
def Builtin.group? : String → Option (List Builtin)
  | "string" => some Builtin.Text.functions
  | "number" => some Builtin.Number.functions
  | "math" => some Builtin.Math.functions
  | "date" => some Builtin.Date.functions
  | _ => none

/-- The function of a name among some functions. -/
def Builtin.find? (functions : List Builtin) (name : String) : Option Builtin :=
  functions.find? (·.name == name)

end HtmlTemplate
