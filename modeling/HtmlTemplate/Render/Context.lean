import HtmlTemplate.Markup.Call
import HtmlTemplate.Markup.Reference
import HtmlTemplate.Render.Error
import HtmlTemplate.Render.Session
/-!
What a piece of a template is rendered with, and what the parts of markup that
compute something mean there. Nothing here changes the session.
-/
namespace HtmlTemplate

/-- The parameters, frames and file that a piece of a template is rendered
with. -/
structure Context where
  bag : Bag
  scopes : Scopes
  file : String

namespace Context

/-- What the free names of script text mean in a context. -/
def environment (context : Context) (session : Session) : Environment :=
  .ofBag context.bag (session.function? context.scopes)

/-- Whether a condition holds. It may stand in parentheses. -/
def conditionHolds (context : Context) (session : Session) (condition : String) :
    Except EvalError Bool :=
  let trimmed := Text.trim condition.toList
  let inner := (insideParens? trimmed).getD trimmed
  (Script.evaluate (String.ofList inner) (context.environment session)).map Data.truthy

/-- The text that a call in markup is written as. What it holds of `@(` is not
read as a reference later on. -/
def callText (context : Context) (session : Session) (token : Token) :
    Except RenderError (List Char) :=
  let unknown? :=
    (splitCall? token.value.toList).filter fun (name, _) =>
      (session.function? context.scopes (String.ofList name)).isNone
  match unknown? with
  | some (name, _) => .error (.runtime (.unknownFunction (String.ofList name)) token.location)
  | none =>
    match invokeCall token.value (context.environment session) with
    | .ok value => .ok (shield (Data.stringify (some value)).toList)
    | .error e => .error (.ofEval e token.location)

end Context

/-- What a loop goes over and the name it gives to each item. -/
structure LoopHead where
  items : List Data
  binding : String

/-- Reads the head of a loop, `(path:name)`. -/
def Context.loopHead (context : Context) (token : Token) : Except RenderError LoopHead :=
  let text := token.value.toList
  match Text.splitFirst? [':'] ((insideParens? text).getD text) with
  | none => .error (.atToken .loopHead token)
  | some (path, binding) =>
    let binding := Text.trim binding
    let name := String.ofList binding
    if name = loopIndexName then .error (.unmet .freeBindingName name token.location)
    else if binding = [] || !binding.all Source.isWordChar then
      .error (.unmet .bindingName name token.location)
    else
      match context.bag.lookup? (String.ofList path) with
      | some (.array items) => .ok ⟨items, name⟩
      | found =>
        .error (.runtime (.notAnArray ((found.map Data.typeOf).getD "undefined")) token.location)

/-- The parameters for one item of a loop. -/
def Bag.forItem (bag : Bag) (binding : String) (item : Data) (index : Nat) : Bag :=
  (bag.insert binding item).insert loopIndexName (.ofInt index)

end HtmlTemplate
