import HtmlTemplate.Number.Double
/-!
Decimal numerals. `Decimal.shortest` finds the fewest digits that identify a
double, `Decimal.fixed` rounds one to a number of places, and `readDouble?` reads
a numeral back. How digits are laid out is decided by the two small layouts at
the end: a positional one for display and the compact one of JSON.
-/
namespace HtmlTemplate

/-- The number `digits · 10 ^ exponent`. -/
structure Decimal where
  digits : Nat
  exponent : Int
  deriving Repr, DecidableEq

namespace Decimal

/-- The decimal digits of a natural number. -/
def digitsOf (n : Nat) : List Char :=
  Nat.toDigits 10 n

/-- Moves the zeros a number ends with into its exponent. -/
def stripZeros : (fuel : Nat) → Decimal → Decimal
  | 0, d => d
  | fuel + 1, d =>
    if d.digits != 0 && d.digits % 10 == 0 then
      stripZeros fuel ⟨d.digits / 10, d.exponent + 1⟩
    else d

/-- Which of two equally near candidates is taken: the greater one, or the one
whose last digit is even. -/
inductive Tie where
  | up
  | even
  deriving Repr, DecidableEq

/-- The reals that round to a double, on one decimal grid. With `step` for
`10 ^ k` on the same scale, `low`, `value` and `high` are the ends and the middle;
the ends count when `closed`. -/
structure Window where
  low : Nat
  value : Nat
  high : Nat
  step : Nat
  closed : Bool

/-- Whether a grid point rounds to the double. -/
def Window.holds (w : Window) (point : Nat) : Bool :=
  if w.closed then w.low ≤ point * w.step && point * w.step ≤ w.high
  else w.low < point * w.step && point * w.step < w.high

/-- The window of `significand · 2 ^ exponent` on the grid of `10 ^ k`. Below a
power of two doubles lie twice as close, so that the window is narrower there. -/
def Window.of (significand : Nat) (exponent k : Int) : Window :=
  let num := Nat.pow 2 (exponent - 2).toNat * Nat.pow 10 (-k).toNat
  let narrow := significand == Nat.pow 2 52 && decide (-1074 < exponent)
  { low := (4 * significand - if narrow then 1 else 2) * num
    value := 4 * significand * num
    high := (4 * significand + 2) * num
    step := Nat.pow 2 (2 - exponent).toNat * Nat.pow 10 k.toNat
    closed := significand % 2 == 0 }

/-- The grid point in the window that is nearest to the value, if there is one.
No other than the two neighbours of the value can be. -/
def Window.nearest? (w : Window) (tie : Tie) : Option Nat :=
  let below := w.value / w.step
  let above := below + 1
  match w.holds below, w.holds above with
  | false, false => none
  | true, false => some below
  | false, true => some above
  | true, true =>
    let down := w.value - below * w.step
    let up := above * w.step - w.value
    if down < up then some below
    else if up < down then some above
    else
      match tie with
      | .up => some above
      | .even => if below % 2 = 0 then some below else some above

/-- Tries ever finer grids. -/
def shortestFrom (tie : Tie) (significand : Nat) (exponent : Int) : (fuel : Nat) → (k : Int) → Decimal
  | 0, k =>
    let w := Window.of significand exponent k
    ⟨w.value / w.step, k⟩
  | fuel + 1, k =>
    match (Window.of significand exponent k).nearest? tie with
    | some digits => ⟨digits, k⟩
    | none => shortestFrom tie significand exponent fuel (k - 1)

/-- The exponent of the leading decimal digit of `significand · 2 ^ exponent`. -/
def leadingExponent (significand : Nat) (exponent : Int) : Int :=
  let num := significand * Nat.pow 2 exponent.toNat
  let den := Nat.pow 2 (-exponent).toNat
  if den ≤ num then ((digitsOf (num / den)).length : Int) - 1
  else
    let places := (digitsOf (den / num)).length
    if den ≤ num * Nat.pow 10 (places - 1) then 1 - (places : Int) else -(places : Int)

/-- The fewest digits that identify a positive double among all doubles, and of
those the nearest. Seventeen digits always suffice. -/
def shortest (tie : Tie) (significand : Nat) (exponent : Int) : Decimal :=
  if significand = 0 then ⟨0, 0⟩
  else stripZeros 20 (shortestFrom tie significand exponent 17 (leadingExponent significand exponent))

/-- The integer nearest to `num / den`; a half goes to the even neighbour. -/
def roundHalfEven (num den : Nat) : Nat :=
  let whole := num / den
  let twice := 2 * (num % den)
  if twice < den then whole
  else if den < twice then whole + 1
  else if whole % 2 = 0 then whole else whole + 1

/-- A numeral without exponent: the digits with a point put in, or padded with
zeros where they do not reach it. -/
def positional (d : Decimal) : List Char :=
  let ds := digitsOf d.digits
  let point := (ds.length : Int) + d.exponent
  if 0 ≤ d.exponent then ds ++ List.replicate d.exponent.toNat '0'
  else if 0 < point then ds.take point.toNat ++ '.' :: ds.drop point.toNat
  else '0' :: '.' :: (List.replicate (-point).toNat '0' ++ ds)

/-- A finite double rounded to a number of decimal places, without its sign. -/
def fixed (places : Nat) (significand : Nat) (exponent : Int) : List Char :=
  let num := significand * Nat.pow 2 exponent.toNat * Nat.pow 10 places
  let scaled := roundHalfEven num (Nat.pow 2 (-exponent).toNat)
  let whole := digitsOf (scaled / Nat.pow 10 places)
  if places = 0 then whole
  else
    let part := digitsOf (scaled % Nat.pow 10 places)
    whole ++ '.' :: (List.replicate (places - part.length) '0' ++ part)

/-- An exponent with its sign, which is written also where it is positive. -/
def signedExponent (e : Int) : List Char :=
  if e < 0 then (toString e).toList else '+' :: (toString e).toList

/-- The layout of numbers in JSON: a point is always written, and an exponent is
used from `10 ^ 16` up and below `10 ^ -5`. -/
def jsonLayout (d : Decimal) : List Char :=
  let ds := digitsOf d.digits
  let point := (ds.length : Int) + d.exponent
  if 0 ≤ d.exponent && point ≤ 16 then
    ds ++ List.replicate d.exponent.toNat '0' ++ ['.', '0']
  else if -5 < point && point ≤ 16 then positional d
  else
    let exponent := signedExponent (point - 1)
    match ds with
    | [] => []
    | [c] => c :: 'e' :: exponent
    | c :: rest => c :: '.' :: (rest ++ 'e' :: exponent)

end Decimal

namespace Double

/-- How a number is displayed: integers below `10 ^ 21` with all their digits,
other numbers with the fewest digits that identify them, never with an
exponent. -/
def text (x : Float) : String :=
  match ofFloat x with
  | .notANumber => "NaN"
  | .infinite negative => if negative then "-Infinity" else "Infinity"
  | .finite negative significand exponent =>
    match toInt? x with
    | some n =>
      if n.natAbs < Nat.pow 10 21 then toString n
      else String.ofList ((if negative then ['-'] else []) ++
        (Decimal.shortest .up significand exponent).positional)
    | none =>
      String.ofList ((if negative then ['-'] else []) ++
        (Decimal.shortest .up significand exponent).positional)

/-- How a finite double is written in JSON. -/
def jsonText (x : Float) : String :=
  match ofFloat x with
  | .finite negative significand exponent =>
    String.ofList ((if negative then ['-'] else []) ++
      (Decimal.shortest .even significand exponent).jsonLayout)
  | _ => "null"

end Double

/-- Natural numbers of 64 bits are below this one. -/
def natBound : Nat := 18446744073709551616

/-- Integers of 64 bits with sign are below this one and not below its negation. -/
def intBound : Int := 9223372036854775808

/-- The natural number that a text of decimal digits stands for. -/
def digitsValue (digits : List Char) : Nat :=
  digits.foldl (fun n c => 10 * n + (c.toNat - '0'.toNat)) 0

/-- The natural number that a text of decimal digits stands for, if it is below a
bound. The value grows with every digit, so reading stops where it leaves the bound. -/
def digitsBelow? (bound : Nat) (digits : List Char) : Option Nat :=
  digits.foldlM (fun n c =>
    let next := 10 * n + (c.toNat - '0'.toNat)
    if next < bound then some next else none) 0

/-- The number of significant digits that settle which double is nearest to a
numeral. No double and no middle between two of them has more than 768, so that of
the digits behind only counts whether all of them are zero. -/
def Decimal.settlingDigits : Nat := 800

/-- The number that a text of digits stands for, times a power of ten. Of the digits
behind the settling ones a single one is kept. -/
def Decimal.ofDigits (digits : List Char) (exponent : Int) : Decimal :=
  let significant := digits.dropWhile (· == '0')
  let settling := significant.take settlingDigits
  match significant.drop settlingDigits with
  | [] => ⟨digitsValue settling, exponent⟩
  | behind =>
    let last := if behind.all (· == '0') then 0 else 1
    ⟨10 * digitsValue settling + last, exponent + behind.length - 1⟩

/-- The double nearest to a decimal number. -/
def Decimal.toFloat (d : Decimal) : Float :=
  Float.ofScientific d.digits (decide (d.exponent < 0)) d.exponent.natAbs

/-- Takes a sign off the front of a text. -/
def takeSign : List Char → Bool × List Char
  | '-' :: rest => (true, rest)
  | '+' :: rest => (false, rest)
  | text => (false, text)

/-- The size of an exponent. Once it is at least `reach`, no further digit of it
counts. -/
def exponentSize (reach : Nat) (digits : List Char) : Nat :=
  digits.foldl (fun n c => if n < reach then 10 * n + (c.toNat - '0'.toNat) else n) 0

/-- Reads the exponent that may end a numeral. -/
def readExponent? (reach : Nat) : List Char → Option Int
  | [] => some 0
  | c :: rest =>
    if c == 'e' || c == 'E' then
      let (negative, digits) := takeSign rest
      if digits ≠ [] && digits.all Char.isDigit then
        let size := exponentSize reach digits
        some (if negative then -(size : Int) else size)
      else none
    else none

/-- Reads a whole text as a decimal numeral: an optional sign, digits with at
most one point among them, an optional exponent, which is cut at `reach`. The result
is the nearest double. -/
def readDoubleWithin? (reach : Nat) (text : List Char) : Option Float :=
  let (negative, rest) := takeSign text
  let whole := rest.takeWhile Char.isDigit
  let rest := rest.dropWhile Char.isDigit
  let (part, rest) :=
    match rest with
    | '.' :: more => (more.takeWhile Char.isDigit, more.dropWhile Char.isDigit)
    | _ => ([], rest)
  if whole = [] && part = [] then none
  else
    (readExponent? reach rest).map fun exponent =>
      let magnitude := (Decimal.ofDigits (whole ++ part) (exponent - part.length)).toFloat
      if negative then -magnitude else magnitude

/-- Where the exponents of numerals in templates and in their data are cut. -/
def exponentReach : Nat := 65536

/-- Reads a whole text as a decimal numeral of a template. -/
def readDouble? (text : List Char) : Option Float :=
  readDoubleWithin? exponentReach text

/-- Reads a whole text as a natural number below `2 ^ 64`; a plus sign may stand
in front. -/
def readNatural? (text : List Char) : Option Nat :=
  let digits :=
    match text with
    | '+' :: rest => rest
    | _ => text
  if digits ≠ [] && digits.all Char.isDigit then digitsBelow? natBound digits else none

/-- Reads a whole text as an integer between `-2 ^ 63` and `2 ^ 63 - 1`. -/
def readInteger? (text : List Char) : Option Int :=
  let (negative, digits) := takeSign text
  if digits ≠ [] && digits.all Char.isDigit then
    (digitsBelow? natBound digits).bind fun size =>
      let n : Int := if negative then -(size : Int) else size
      if -intBound ≤ n && n < intBound then some n else none
  else none

end HtmlTemplate
