import HtmlTemplate.Builtin.Basic
import HtmlTemplate.Data.Path
/-!
The functions that template code can call, and where it looks up its free names.
-/
namespace HtmlTemplate

/-- A function: a built-in one, or one that a template declares. -/
inductive Function where
  | builtin (b : Builtin)
  | script (name : String) (params : List String) (body : List Script.Statement)

namespace Function

/-- A declared function from the text of its body. -/
def compile (name : String) (params : List String) (body : String) : Except EvalError Function :=
  match Script.Statement.parseAll body with
  | .ok statements => .ok (.script name params statements)
  | .error e => .error (.malformed e)

def name : Function → String
  | builtin b => b.name
  | script name .. => name

/-- A function as it is described for inspection. -/
def describe : Function → String
  | builtin b => "Builtin(" ++ b.name ++ ")"
  | script name params _ => "Script(" ++ name ++ "(" ++ ", ".intercalate params ++ "))"

end Function

/-- What the free names of script text mean: variables, the paths of references,
and functions. -/
structure Environment where
  value? : String → Option Data
  path? : String → Option Data
  function? : String → Option Function

/-- The environment in which nothing has a meaning. -/
def Environment.empty : Environment :=
  ⟨fun _ => none, fun _ => none, fun _ => none⟩

/-- The environment of a bag of parameters and some functions. -/
def Environment.ofBag (bag : Bag) (function? : String → Option Function) : Environment :=
  ⟨bag.get?, bag.lookup?, function?⟩

end HtmlTemplate
