import HtmlTemplate.Script.Tree
import HtmlTemplate.Data.Path
import HtmlTemplate.Script.EvalError
/-!
The local variables of an evaluation, and changes to the parts of their values.
-/
namespace HtmlTemplate.Script

/-- A variable with its value and how it was declared. -/
structure Local where
  name : String
  value : Data
  kind : Declaration
  deriving BEq

/-- The local variables, each name once, in the order of their first
declaration. -/
abbrev Locals := List Local

namespace Locals

/-- The variable of a name. -/
def get? (locals : Locals) (name : String) : Option Local :=
  locals.find? (·.name == name)

/-- Declares a variable, anew if there is one of that name. -/
def declare (kind : Declaration) (name : String) (value : Data) : Locals → Locals
  | [] => [⟨name, value, kind⟩]
  | l :: rest =>
    if l.name = name then ⟨name, value, kind⟩ :: rest else l :: declare kind name value rest

/-- Gives a variable another value. -/
def update (name : String) (value : Data) : Locals → Locals
  | [] => []
  | l :: rest => if l.name = name then { l with value } :: rest else l :: update name value rest

end Locals

/-- Puts a value at a place of an array, which is filled up with null as far as
needed. -/
def setItem (items : List Data) (i : Nat) (value : Data) : List Data :=
  if i < items.length then items.set i value
  else items ++ List.replicate (i - items.length) .null ++ [value]

/-- Changes the value of one property. -/
def setProperty (target : Data) (key : String) (value : Data) : Except EvalError Data :=
  match target with
  | .object fields => .ok (.object (Bag.insert key value fields))
  | .array items =>
    match readNatural? key.toList with
    | some i => .ok (.array (setItem items i value))
    | none => .error (.invalidAssignment key "an array")
  | other => .error (.invalidAssignment key other.typeOf)

/-- Changes the part of a value that keys lead to. All keys but the last must lead
to something that is there. -/
def setAt (target : Data) : (keys : List String) → (value : Data) → Except EvalError Data
  | [], value => .ok value
  | [key], value => setProperty target key value
  | key :: next :: rest, value =>
    match target with
    | .object fields =>
      match Bag.get? fields key with
      | some inner =>
        (setAt inner (next :: rest) value).map fun changed => .object (Bag.set key changed fields)
      | none => .error (.invalidAssignment key "undefined")
    | .array items =>
      match (readNatural? key.toList).bind fun i => (items[i]?).map (i, ·) with
      | some (i, inner) =>
        (setAt inner (next :: rest) value).map fun changed => .array (items.set i changed)
      | none => .error (.invalidAssignment key "undefined")
    | _ => .error (.invalidAssignment key "undefined")

end HtmlTemplate.Script
