import HtmlTemplate.Builtin.Basic
/-!
Mathematical functions and constants, the members of the group `math`.
-/
namespace HtmlTemplate.Builtin.Math

/-- A constant as a function that looks at no argument. -/
def constant (name : String) (x : Float) : Builtin :=
  .total name fun _ => .ofFloat x

/-- `-1`, `0` or `1`; zero and NaN stay as they are. -/
def sign (x : Float) : Float :=
  match Double.compare? x 0 with
  | some .lt => -1
  | some .gt => 1
  | _ => x

/-- A power. One raised to an infinite exponent is no number, and neither is
anything raised to NaN. -/
def power (base exponent : Float) : Float :=
  match Double.ofFloat exponent with
  | .notANumber => Double.nan
  | .infinite _ => if Double.equal base.abs 1 then Double.nan else base.pow exponent
  | .finite .. => base.pow exponent

/-- The functions of the group `math`. A page is a function of its parameters, so
that the number that `random` draws is always zero. -/
def functions : List Builtin := [
  constant "PI" 3.141592653589793,
  constant "E" 2.718281828459045,
  constant "SQRT2" 1.4142135623730951,
  constant "SQRT12" 0.7071067811865476,
  constant "LN2" 0.6931471805599453,
  constant "LN10" 2.302585092994046,
  constant "LOG2E" 1.4426950408889634,
  constant "LOG10E" 0.4342944819032518,
  .numeric "round" (Double.mapInteger Double.roundUp?),
  .numeric "ceil" (Double.mapInteger Double.ceil?),
  .numeric "floor" (Double.mapInteger Double.floor?),
  .numeric "trunc" (Double.mapInteger Double.truncate?),
  .numeric "sign" sign,
  .total "pow" fun args => .ofFloat (power (argument args 0).toNumber (argument args 1).toNumber),
  .numeric "sqrt" Float.sqrt,
  .numeric "abs" Float.abs,
  .numeric "sin" Float.sin,
  .numeric "cos" Float.cos,
  .numeric "tan" Float.tan,
  constant "random" 0,
  .numeric "log" Float.log,
  .numeric "log2" Float.log2,
  .numeric "log10" Float.log10]

/-- The greatest of some numbers, or the least; NaN as soon as one of them is. -/
def extreme (wanted : Ordering) (start : Float) (args : List Data) : Data :=
  .ofFloat (args.foldl (fun best value =>
    let x := value.toNumber
    match Double.compare? best best, Double.compare? x best with
    | none, _ => best
    | _, none => Double.nan
    | _, some order => if order = wanted then x else best) start)

/-- The greatest of the arguments. -/
def greatest (args : List Data) : Data :=
  extreme .gt (-1 / 0) args

/-- The least of the arguments. -/
def least (args : List Data) : Data :=
  extreme .lt (1 / 0) args

end HtmlTemplate.Builtin.Math
