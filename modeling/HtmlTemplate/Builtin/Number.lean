import HtmlTemplate.Builtin.Basic
/-!
Functions on numbers, the members of the group `number`.
-/
namespace HtmlTemplate.Builtin.Number

/-- `base` raised to a natural power by repeated squaring, each product rounded;
`fuel` bounds the number of binary digits of the exponent. -/
def powerFrom (base result : Float) : (fuel exponent : Nat) → Float
  | 0, _ => result
  | fuel + 1, exponent =>
    let result := if exponent % 2 = 1 then result * base else result
    if exponent / 2 = 0 then result else powerFrom (base * base) result fuel (exponent / 2)

/-- A power of ten. -/
def tenTo (exponent : Nat) : Float :=
  powerFrom 10 1 (exponent + 1) exponent

/-- A finite double of magnitude below `10 ^ 21` with so many decimal places. It
is first rounded as a double, a half away from zero, and then written exactly. -/
def fixedText (x : Float) (digits : Nat) : String :=
  let factor := tenTo digits
  let scaled := x.abs * factor
  let magnitude :=
    if Double.isFinite scaled then Double.mapInteger Double.roundAway? scaled / factor else x.abs
  let sign := if Double.compare? x 0 = some .lt then ['-'] else []
  match Double.ofFloat magnitude with
  | .finite _ significand exponent =>
    String.ofList (sign ++ Decimal.fixed digits significand exponent)
  | _ => Double.text magnitude

/-- The first argument, read as a numeral, with as many decimal places as the
second one says. -/
def toFixed (args : List Data) : Except EvalError Data :=
  let x := (argument args 0).parseFloat
  match Position.ofData (argument args 1) with
  | .at n =>
    if 0 ≤ n && n ≤ 100 then
      if Double.isFinite x && Double.compare? x.abs 1e21 = some .lt then
        .ok (.string (fixedText x n.toNat))
      else .ok (.string (Double.text x))
    else .error .digitsOutOfRange
  | _ => .error .digitsOutOfRange

/-- The first argument as a number; zero if there is none. -/
def toNumber (args : List Data) : Data :=
  match args with
  | [] => .ofInt 0
  | value :: _ => .ofFloat value.toNumber

/-- Whether doubles tell an integer from its neighbours. -/
def isSafe (x : Float) : Bool :=
  match Double.truncate? x with
  | some n => n.natAbs ≤ Double.maxSafe
  | none => false

/-- The functions of the group `number`. -/
def functions : List Builtin := [
  ⟨"toFixed", toFixed⟩,
  .total "number" toNumber,
  .total "parseInt" fun args => .ofFloat (argument args 0).parseInt,
  .total "parseFloat" fun args => .ofFloat (argument args 0).parseFloat,
  .total "isInteger" fun args => .bool (Double.isFinite (argument args 0).parseInt),
  .total "isSafeInteger" fun args => .bool (isSafe (argument args 0).parseInt)]

end HtmlTemplate.Builtin.Number
