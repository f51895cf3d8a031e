/-!
Doubles taken apart: sign, significand and exponent, and the operations that are
exact on them. Order, truncation and remainder are computed on integers, so that
what they do can be read off the parts and not only off the machine's
instructions.
-/
namespace HtmlTemplate

/-- What the 64 bits of a double stand for: no number, an infinity, or
`± significand · 2 ^ exponent`. -/
inductive Double where
  | notANumber
  | infinite (negative : Bool)
  | finite (negative : Bool) (significand : Nat) (exponent : Int)
  deriving Repr, DecidableEq

namespace Double

/-- Takes a double apart. Subnormal numbers share the exponent of the smallest
normal ones and have no leading one. -/
def ofFloat (x : Float) : Double :=
  let bits : Nat := x.toBits.toNat
  let negative : Bool := Nat.pow 2 63 ≤ bits
  let field : Nat := bits / Nat.pow 2 52 % Nat.pow 2 11
  let fraction : Nat := bits % Nat.pow 2 52
  if field = 2047 then
    if fraction = 0 then .infinite negative else .notANumber
  else if field = 0 then .finite negative fraction (-1074)
  else .finite negative (Nat.pow 2 52 + fraction) ((field : Int) - 1075)

/-- An integer that orders doubles as their values: equal doubles, zeros of
either sign among them, have equal keys. -/
def key? (x : Float) : Option Int :=
  let bits : Nat := x.toBits.toNat
  let magnitude : Nat := bits % Nat.pow 2 63
  if 2047 * Nat.pow 2 52 < magnitude then none
  else if Nat.pow 2 63 ≤ bits then some (-(magnitude : Int))
  else some (magnitude : Int)

/-- Compares two doubles by value; nothing compares with a NaN. -/
def compare? (x y : Float) : Option Ordering :=
  match key? x, key? y with
  | some a, some b => some (compare a b)
  | _, _ => none

/-- Equality by value: zeros of either sign are equal and NaN equals nothing. -/
def equal (x y : Float) : Bool :=
  match key? x, key? y with
  | some a, some b => a == b
  | _, _ => false

/-- The significand times a power of two, rounded toward zero, with the digits
lost told apart: whether anything was lost, and whether it was at least a half. -/
def shift (significand : Nat) (exponent : Int) : Nat × Bool × Bool :=
  if 0 ≤ exponent then (significand * Nat.pow 2 exponent.toNat, false, false)
  else
    let unit := Nat.pow 2 (-exponent).toNat
    let lost := significand % unit
    (significand / unit, lost != 0, unit ≤ 2 * lost)

/-- The integer part of a finite double. -/
def truncate? (x : Float) : Option Int :=
  match ofFloat x with
  | .finite negative significand exponent =>
    let (whole, _, _) := shift significand exponent
    some (if negative then -(whole : Int) else whole)
  | _ => none

/-- The greatest integer that is not above a finite double. -/
def floor? (x : Float) : Option Int :=
  match ofFloat x with
  | .finite negative significand exponent =>
    let (whole, inexact, _) := shift significand exponent
    some (if negative then (if inexact then -(whole : Int) - 1 else -(whole : Int)) else whole)
  | _ => none

/-- The least integer that is not below a finite double. -/
def ceil? (x : Float) : Option Int :=
  match ofFloat x with
  | .finite negative significand exponent =>
    let (whole, inexact, _) := shift significand exponent
    some (if negative then -(whole : Int) else if inexact then whole + 1 else whole)
  | _ => none

/-- The integer nearest to a finite double; a half goes away from zero. -/
def roundAway? (x : Float) : Option Int :=
  match ofFloat x with
  | .finite negative significand exponent =>
    let (whole, _, half) := shift significand exponent
    let magnitude : Int := if half then whole + 1 else whole
    some (if negative then -magnitude else magnitude)
  | _ => none

/-- The integer nearest to a finite double; a half goes up. -/
def roundUp? (x : Float) : Option Int :=
  match ofFloat x with
  | .finite negative significand exponent =>
    let (whole, _, half) := shift significand exponent
    if negative then
      let exactHalf := half && 2 * significand == (2 * whole + 1) * Nat.pow 2 (-exponent).toNat
      some (if half && !exactHalf then -(whole : Int) - 1 else -(whole : Int))
    else some (if half then whole + 1 else whole)
  | _ => none

/-- The value of a finite double when it is an integer. -/
def toInt? (x : Float) : Option Int :=
  match ofFloat x with
  | .finite negative significand exponent =>
    let (whole, inexact, _) := shift significand exponent
    if inexact then none else some (if negative then -(whole : Int) else whole)
  | _ => none

/-- Whether a finite double has a minus sign. A zero may have one. -/
def isNegative (x : Float) : Bool :=
  match ofFloat x with
  | .finite negative _ _ => negative
  | _ => false

/-- Applies an integer-valued rounding to a double; what is not finite stays as
it is. A number that becomes zero keeps its sign. -/
def mapInteger (round : Float → Option Int) (x : Float) : Float :=
  match round x with
  | some n => if n = 0 && isNegative x then -0 else Float.ofInt n
  | none => x

/-- Whether a double is neither infinite nor NaN. -/
def isFinite (x : Float) : Bool :=
  match ofFloat x with
  | .finite .. => true
  | _ => false

/-- The double `± significand · 2 ^ exponent`, for parts that a double can hold. -/
def ofParts (negative : Bool) (significand : Nat) (exponent : Int) : Float :=
  let magnitude :=
    if 0 ≤ exponent then Float.ofNat (significand * Nat.pow 2 exponent.toNat)
    else
      let bits := significand.log2 + 1
      if bits = 1 && significand = 0 then 0
      else
        -- A normal number has its leading one dropped, a subnormal one is stored as it is.
        let room := min (53 - bits : Int) (exponent + 1074)
        let lifted := significand * Nat.pow 2 room.toNat
        let field := exponent - room + 1075
        if lifted < Nat.pow 2 52 then Float.ofBits (UInt64.ofNat lifted)
        else Float.ofBits (UInt64.ofNat ((field.toNat - 1) * Nat.pow 2 52 + lifted))
  if negative then -magnitude else magnitude

/-- The remainder of a division that truncates: it has the sign of the dividend
and is exact. -/
def remainder (x y : Float) : Float :=
  match ofFloat x, ofFloat y with
  | .finite negative a p, .finite _ b q =>
    if b = 0 then 0 / 0
    else
      let low := min p q
      let rest := (a * Nat.pow 2 (p - low).toNat) % (b * Nat.pow 2 (q - low).toNat)
      ofParts negative rest low
  | .finite .., .infinite _ => x
  | _, _ => 0 / 0

end Double

end HtmlTemplate
