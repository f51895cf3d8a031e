import HtmlTemplate.Script.EvalError
/-!
Built-in functions, and the positions and slices they share. A position is an
integer, or lies before or behind all of them; which texts and arrays have a place
there is decided on integers.
-/
namespace HtmlTemplate

/-- A function that template code can call without declaring it. -/
structure Builtin where
  name : String
  run : List Data → Except EvalError Data

/-- An argument by its place; one that is not given is null. -/
def argument (args : List Data) (i : Nat) : Data :=
  (args[i]?).getD .null

/-- A function that computes a number from its first argument read as one. -/
def Builtin.numeric (name : String) (f : Float → Float) : Builtin :=
  ⟨name, fun args => .ok (.ofFloat (f (argument args 0).toNumber))⟩

/-- A function that cannot fail. -/
def Builtin.total (name : String) (f : List Data → Data) : Builtin :=
  ⟨name, fun args => .ok (f args)⟩

/-- An integer, or what lies before or behind every integer. -/
inductive Position where
  | before
  | at (n : Int)
  | behind
  deriving Repr, DecidableEq

namespace Position

/-- Reads a value as a position: its number without the fraction, zero if it is
no number. -/
def ofData : Data → Position
  | .number (.int n) => .at n
  | value =>
    let x := value.toNumber
    match Double.ofFloat x with
    | .notANumber => .at 0
    | .infinite negative => if negative then .before else .behind
    | .finite .. => .at ((Double.truncate? x).getD 0)

/-- The place of a position among `length` ones; what lies outside of them has
none. -/
def index? (length : Nat) : Position → Option Nat
  | .at n => if 0 ≤ n && n < length then some n.toNat else none
  | _ => none

/-- The same, with negative positions counted from the end. -/
def relativeIndex? (length : Nat) : Position → Option Nat
  | .at n => index? length (.at (if n < 0 then length + n else n))
  | _ => none

/-- The nearest of the boundaries `0` to `length`. -/
def clamp (length : Nat) : Position → Nat
  | .before => 0
  | .at n => min n.toNat length
  | .behind => length

/-- The same, with negative positions counted from the end. -/
def relativeClamp (length : Nat) : Position → Nat
  | .at n => clamp length (.at (if n < 0 then length + n else n))
  | p => p.clamp length

end Position

/-- The boundary a value means; null means `default`. -/
def boundary (length default : Nat) : Data → Nat
  | .null => default
  | value => (Position.ofData value).relativeClamp length

/-- The part of a list between two boundaries, which count from the end if
negative. Nothing lies between a boundary and an earlier one. -/
def sliceOf {α : Type} (items : List α) (start stop : Data) : List α :=
  let first := boundary items.length 0 start
  (items.take (boundary items.length items.length stop)).drop first

end HtmlTemplate
