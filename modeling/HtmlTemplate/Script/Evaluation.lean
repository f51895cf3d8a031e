import HtmlTemplate.Script.Function
import HtmlTemplate.Script.Locals
import HtmlTemplate.Script.Operators
/-!
Evaluation of expressions and statements. It recurs on the tree; a call of a
function is handed to `invoke`, so that how deep calls may nest is settled apart,
in `invokeWithin`. The local variables are kept also when an evaluation fails.
-/
namespace HtmlTemplate.Script

/-- A computation with local variables that may fail. -/
abbrev Eval (α : Type) := ExceptT EvalError (StateM Locals) α

/-- How a statement list goes on: with the next statement, or by giving a value
back. -/
inductive Flow where
  | next
  | giveBack (value : Data)

/-- How functions are called. -/
abbrev Invoke := Function → List Data → Except EvalError Data

/-- Whether a name stands for a variable and not for a global object. -/
def isBound (env : Environment) (locals : Locals) (name : String) : Bool :=
  (locals.get? name).isSome || (env.value? name).isSome

/-- The value of a name: that of a local variable, else of the environment, else
of a global constant; else null. -/
def variableValue (env : Environment) (locals : Locals) (name : String) : Data :=
  match locals.get? name with
  | some l => l.value
  | none =>
    match env.value? name with
    | some value => value
    | none =>
      match name with
      | "NaN" => .string "NaN"
      | "Infinity" => .string "Infinity"
      | _ => .null

/-- A constant such as `Math.PI`, unless `Math` is a variable. -/
def constantMember? (env : Environment) (locals : Locals) (object property : Expr) : Option Data :=
  match object, property with
  | .identifier _ "Math", .string _ name =>
    if isBound env locals "Math" then none else mathConstant? name
  | _, _ => none

/-- Whether an expression is the global object of mathematics. -/
def isMath (env : Environment) (locals : Locals) : Expr → Bool
  | .identifier _ name => name == "Math" && !isBound env locals "Math"
  | _ => false

/-- The function call behind a plain name. A local variable is no function. -/
def callNamed (env : Environment) (invoke : Invoke) (locals : Locals) (name : String)
    (args : List Data) : Except EvalError Data :=
  if (locals.get? name).isSome then .error (.notAFunction name)
  else
    match env.function? name with
    | some f => invoke f args
    | none =>
      match globalFunction? name args with
      | some value => .ok value
      | none => .error (.notAFunction name)

/-- Changes a variable or a part of its value. A name that is no local variable
becomes one; if a part is changed, with a copy of its value so far. -/
def store (env : Environment) (name : String) (keys : List String) (value : Data) : Eval Unit := do
  let locals ← get
  match keys with
  | [] =>
    match locals.get? name with
    | some l =>
      if l.kind = .constant then throw (.constantAssignment name)
      else set (locals.update name value)
    | none => set (locals.declare .variable name value)
  | _ =>
    let current := variableValue env locals name
    if (locals.get? name).isNone then set (locals.declare .variable name current)
    match setAt current keys value with
    | .ok changed => modify (Locals.update name changed)
    | .error e => throw e

variable (env : Environment) (invoke : Invoke)

mutual

/-- The value of an expression. -/
def eval : Expr → Eval Data
  | .number _ x => return .ofFloat x
  | .string _ text => return .string text
  | .boolean _ b => return .bool b
  | .null _ | .undefined _ => return .null
  | .identifier _ name => return variableValue env (← get) name
  | .reference _ path => return (env.path? path).getD .null
  | .binary _ op left right => do
    let a ← eval left
    match op.shortcut? a with
    | some value => return value
    | none => return op.apply a (← eval right)
  | .unary _ op operand => return op.apply (← eval operand)
  | .step _ op operand => do
    let old := (← eval operand).toNumber
    assign operand [] (.ofFloat (op.apply old))
    return .ofFloat old
  | .member _ object prop _ _ => do
    match constantMember? env (← get) object prop with
    | some value => return value
    | none =>
      let target ← eval object
      let key ← propertyKey prop
      return getProperty target key
  | .call _ callee arguments => do
    let args ← evalAll arguments
    match callee with
    | .identifier _ name => liftM (callNamed env invoke (← get) name args)
    | .member _ object prop _ _ =>
      let method ← propertyKey prop
      if isMath env (← get) object then liftM (callMath method args)
      else
        let receiver ← eval object
        liftM (callMethod receiver method args)
    | _ => throw (.notAFunction "expression")
  | .conditional _ condition consequent alternate => do
    if (← eval condition).truthy then eval consequent else eval alternate
  | .object _ properties => return .object (Bag.ofList (← evalProperties properties))
  | .array _ elements => return .array (← evalAll elements)
  | .assign _ op target value => do
    let right ← eval value
    let result ←
      match op.binary? with
      | none => pure right
      | some binary =>
        let current ← eval target
        pure (binary.apply current right)
    assign target [] result
    return result

/-- The values of expressions, from left to right. -/
def evalAll : List Expr → Eval (List Data)
  | [] => return []
  | e :: rest => do
    let value ← eval e
    return value :: (← evalAll rest)

/-- The values of properties, with their keys. -/
def evalProperties : List Property → Eval (List (String × Data))
  | [] => return []
  | .mk key e _ :: rest => do
    let value ← eval e
    return (key, value) :: (← evalProperties rest)

/-- The key that a property expression stands for. -/
def propertyKey : Expr → Eval String
  | .string _ name => return name
  | e => return (← eval e).display

/-- Assigns to a target; `keys` are those behind it. The keys of the target itself
are evaluated from the last to the first. -/
def assign : (target : Expr) → (keys : List String) → Data → Eval Unit
  | .identifier _ name, keys, value => store env name keys value
  | .member _ object prop _ _, keys, value => do
    let key ← propertyKey prop
    assign object (key :: keys) value
  | _, keys, _ => throw (.invalidAssignment (keys.getLast?.getD "") "expression")

end

mutual

/-- Runs one statement. -/
def exec : Statement → Eval Flow
  | .declare kind name value => do
    let value ←
      match value with
      | some e => eval env invoke e
      | none => pure .null
    modify (Locals.declare kind name value)
    return .next
  | .giveBack value => do
    match value with
    | some e => return .giveBack (← eval env invoke e)
    | none => return .giveBack .null
  | .branch condition consequent alternate => do
    if (← eval env invoke condition).truthy then execAll consequent else execAll alternate
  | .block body => execAll body
  | .expression e => do
    let _ ← eval env invoke e
    return .next

/-- Runs statements until one gives a value back. -/
def execAll : List Statement → Eval Flow
  | [] => return .next
  | s :: rest => do
    match ← exec s with
    | .next => execAll rest
    | .giveBack value => return .giveBack value

end

/-- Runs statements; their value is the one given back, or null. -/
def run (body : List Statement) : Eval Data := do
  match ← execAll env invoke body with
  | .giveBack value => return value
  | .next => return .null

/-- The local variables that a function call starts with. Missing arguments are
null and surplus ones are left out. -/
def bindParams (params : List String) (args : List Data) : Locals :=
  (params.zipIdx).foldl (fun locals (name, i) =>
    locals.declare .letVariable name (argument args i)) []

/-- Applies a function, whose own calls are made with `invoke`. -/
def applyFunction (f : Function) (args : List Data) : Except EvalError Data :=
  match f with
  | .builtin b => b.run args
  | .script _ params body => ((run env invoke body).run (bindParams params args)).1

/-- How deep calls of functions may nest. -/
def maxCallDepth : Nat := 64

/-- Calls a function with `remaining` levels of calls left. -/
def invokeWithin : (remaining : Nat) → Invoke
  | 0, _, _ => .error .callDepth
  | remaining + 1, f, args => applyFunction env (invokeWithin remaining) f args

end HtmlTemplate.Script

namespace HtmlTemplate

/-- Calls a function from outside of any other. -/
def Function.call (f : Function) (args : List Data) (env : Environment) : Except EvalError Data :=
  Script.applyFunction env (Script.invokeWithin env Script.maxCallDepth) f args

end HtmlTemplate

namespace HtmlTemplate.Script

/-- The value of an expression, and the local variables afterwards. -/
def Expr.evalIn (e : Expr) (env : Environment) (locals : Locals) : Except EvalError Data × Locals :=
  (eval env (invokeWithin env maxCallDepth) e).run locals

/-- The value of a statement list, and the local variables afterwards. -/
def Statement.runIn (body : List Statement) (env : Environment) (locals : Locals) :
    Except EvalError Data × Locals :=
  (run env (invokeWithin env maxCallDepth) body).run locals

/-- The value of an expression given as text. -/
def evaluate (source : String) (env : Environment) : Except EvalError Data :=
  match Expr.parse source with
  | .error e => .error (.malformed e)
  | .ok e => (e.evalIn env []).1

end HtmlTemplate.Script
