import HtmlTemplate.Builtin.Math
import HtmlTemplate.Builtin.Number
import HtmlTemplate.Builtin.Text
import HtmlTemplate.Script.Tree
/-!
What operators, properties, methods and global functions do with values.
-/
namespace HtmlTemplate.Script

/-- Whether adding something to a value means joining texts. -/
def concatenates (value : Data) : Bool :=
  value.typeOf = "string" || value.typeOf = "object"

/-- The value of an operator applied to two values. -/
def BinaryOp.apply (op : BinaryOp) (a b : Data) : Data :=
  match op with
  | add =>
    if concatenates a || concatenates b then .string (a.display ++ b.display)
    else .ofFloat (a.toNumber + b.toNumber)
  | sub => .ofFloat (a.toNumber - b.toNumber)
  | mul => .ofFloat (a.toNumber * b.toNumber)
  | div => .ofFloat (a.toNumber / b.toNumber)
  | mod => .ofFloat (Double.remainder a.toNumber b.toNumber)
  | eq => .bool (Data.looseEq a b)
  | neq => .bool (!Data.looseEq a b)
  | strictEq => .bool (Data.strictEq a b)
  | strictNeq => .bool (!Data.strictEq a b)
  | lt => .bool (Data.compare? a b == some .lt)
  | gt => .bool (Data.compare? a b == some .gt)
  | lte => .bool (Data.compare? a b == some .lt || Data.compare? a b == some .eq)
  | gte => .bool (Data.compare? a b == some .gt || Data.compare? a b == some .eq)
  | and => if a.truthy then b else a
  | or => if a.truthy then a else b
  | nullish => if a.isNull then b else a

/-- The value an operator has by its left operand alone, if it has one. -/
def BinaryOp.shortcut? (op : BinaryOp) (a : Data) : Option Data :=
  match op with
  | and => if a.truthy then none else some a
  | or => if a.truthy then some a else none
  | nullish => if a.isNull then none else some a
  | _ => none

/-- The value of an operator before its operand. -/
def UnaryOp.apply (op : UnaryOp) (a : Data) : Data :=
  match op with
  | not => .bool (!a.truthy)
  | neg => .ofFloat (-a.toNumber)
  | plus => .ofFloat a.toNumber
  | typeof => .string a.typeOf

/-- The number one step up or down. -/
def StepOp.apply (op : StepOp) (x : Float) : Float :=
  match op with
  | increment => x + 1
  | decrement => x - 1

/-- A property of a value. What is not there is null. -/
def getProperty (target : Data) (key : String) : Data :=
  match target with
  | .string text =>
    if key = "length" then .ofInt text.length
    else
      match (readNatural? key.toList).bind fun i => text.toList[i]? with
      | some c => .ofChars [c]
      | none => .null
  | .array items =>
    if key = "length" then .ofInt items.length
    else ((readNatural? key.toList).bind fun i => items[i]?).getD .null
  | .object fields => (Bag.get? fields key).getD .null
  | _ => .null

/-- The functions that have a meaning without being declared. -/
def globalFunction? (name : String) (args : List Data) : Option Data :=
  let first := argument args 0
  match name with
  | "Number" => some (Builtin.Number.toNumber args)
  | "String" => some (.string ((args.head?.map Data.display).getD ""))
  | "Boolean" => some (.bool first.truthy)
  | "parseInt" => some (.ofFloat first.parseInt)
  | "parseFloat" => some (.ofFloat first.parseFloat)
  | "isNaN" => some (.bool (Double.key? first.toNumber).isNone)
  | _ => none

/-- The function of a name in the group `math`. -/
def mathFunction? (name : String) : Option Builtin :=
  Builtin.Math.functions.find? (·.name == name)

/-- A constant of `Math`, which is written in capitals. -/
def mathConstant? (name : String) : Option Data :=
  let name := if name = "SQRT1_2" then "SQRT12" else name
  if name.toList.all fun c => c.isUpper || c.isDigit then
    (mathFunction? name).bind fun f => (f.run []).toOption
  else none

/-- A call of a function of `Math`, which begins with a small letter. -/
def callMath (name : String) (args : List Data) : Except EvalError Data :=
  match name with
  | "max" => .ok (Builtin.Math.greatest args)
  | "min" => .ok (Builtin.Math.least args)
  | _ =>
    match mathFunction? name with
    | some f =>
      if name.toList.head?.any Char.isLower then f.run args
      else .error (.notAFunction ("Math." ++ name))
    | none => .error (.notAFunction ("Math." ++ name))

/-- The position of the first item that is strictly equal to a value, or `-1`. -/
def indexOfItem (items : List Data) (value : Data) : Data :=
  match items.findIdx? (Data.strictEq · value) with
  | some i => .ofInt i
  | none => .ofInt (-1)

/-- The items of an array followed by those of the arguments that are arrays and
by the other arguments themselves. -/
def concatItems (items args : List Data) : List Data :=
  items ++ args.flatMap fun
    | .array more => more
    | value => [value]

/-- A method of an array, if it has one of that name. -/
def arrayMethod? (items : List Data) (name : String) (args : List Data) : Option Data :=
  let first := argument args 0
  match name with
  | "join" =>
    let separator := if first.isNull then "," else first.display
    some (.string (separator.intercalate (Data.displayItems items)))
  | "includes" => some (.bool (items.any (Data.strictEq · first)))
  | "indexOf" => some (indexOfItem items first)
  | "at" =>
    some ((((Position.ofData first).relativeIndex? items.length).bind (items[·]?)).getD .null)
  | "slice" => some (.array (sliceOf items first (argument args 1)))
  | "concat" => some (.array (concatItems items args))
  | "toString" => some (.string (Data.array items).display)
  | _ => none

/-- A call of a method of a value. -/
def callMethod (receiver : Data) (name : String) (args : List Data) : Except EvalError Data :=
  let missing := EvalError.notAFunction (receiver.typeOf ++ "." ++ name)
  let plain : Except EvalError Data :=
    match name with
    | "toFixed" => Builtin.Number.toFixed [receiver, argument args 0]
    | "toString" => .ok (.string receiver.display)
    | _ => .error missing
  match receiver with
  | .string text =>
    if Data.isNonFinite text then plain
    else (Builtin.Text.method? text name args).getD (.error missing)
  | .array items =>
    match arrayMethod? items name args with
    | some value => .ok value
    | none => .error missing
  | _ => plain

end HtmlTemplate.Script
