import HtmlTemplate.Data.Json
import HtmlTemplate.Text.Blank
/-!
How values are read as truth values, numbers and texts, and how they compare.

A number that is not finite has no place among the values; it is carried as the
text `NaN`, `Infinity` or `-Infinity`, which reads back as the same number.
-/
namespace HtmlTemplate

/-- The double that is no number. -/
def Double.nan : Float := 0 / 0

/-- The greatest integer up to which doubles hold every integer. -/
def Double.maxSafe : Nat := 9007199254740991

namespace Data

/-- Whether a text stands for a number that is not finite. -/
def isNonFinite (text : String) : Bool :=
  text == "NaN" || text == "Infinity" || text == "-Infinity"

/-- What counts as true: all but null, false, zero, NaN and the empty text. -/
def truthy : Data → Bool
  | .null => false
  | .bool b => b
  | .number n => !Double.equal n.toFloat 0 && (Double.key? n.toFloat).isSome
  | .string text => text ≠ "" && text ≠ "NaN"
  | .array _ | .object _ => true

/-- Reads a text as a number: the empty one is zero, one that is no numeral is
NaN. -/
def textToNumber (text : String) : Float :=
  let trimmed := Text.trim text.toList
  if trimmed = [] then 0
  else if trimmed = "Infinity".toList || trimmed = "+Infinity".toList then 1 / 0
  else if trimmed = "-Infinity".toList then -1 / 0
  else (readDouble? trimmed).getD Double.nan

/-- Reads a value as a number. An array of one item counts as that item. -/
def toNumber : Data → Float
  | .null => 0
  | .bool b => if b then 1 else 0
  | .number n => n.toFloat
  | .string text => textToNumber text
  | .array [] => 0
  | .array [item] => item.toNumber
  | .array _ => Double.nan
  | .object _ => Double.nan

mutual

/-- The text of a value. An object has none of its own. -/
def display : Data → String
  | .null => "null"
  | .bool b => if b then "true" else "false"
  | .number n => Double.text n.toFloat
  | .string text => text
  | .array items => ",".intercalate (displayItems items)
  | .object _ => "[object Object]"

/-- The texts of the items of an array; null is empty there. -/
def displayItems : List Data → List String
  | [] => []
  | .null :: rest => "" :: displayItems rest
  | item :: rest => display item :: displayItems rest

end

/-- A computed number as a value. Integers that doubles hold exactly become
integers. -/
def ofFloat (x : Float) : Data :=
  match Double.ofFloat x with
  | .finite .. =>
    match Double.toInt? x with
    | some n => if n.natAbs ≤ Double.maxSafe then ofInt n else .number (.double x)
    | none => .number (.double x)
  | _ => .string (Double.text x)

/-- The name of a value's type. Texts that stand for numbers are numbers. -/
def typeOf : Data → String
  | .null => "undefined"
  | .bool _ => "boolean"
  | .number _ => "number"
  | .string text => if isNonFinite text then "number" else "string"
  | .array _ | .object _ => "object"

/-- Equality without conversion. Arrays and objects are never equal: each is a
value of its own. -/
def strictEq : Data → Data → Bool
  | .null, .null => true
  | .bool a, .bool b => a == b
  | .number a, .number b => Double.equal a.toFloat b.toFloat
  | .string a, .string b => a == b && a ≠ "NaN"
  | _, _ => false

/-- Whether a value is an array or an object. -/
def isCompound : Data → Bool
  | .array _ | .object _ => true
  | _ => false

/-- Equality after conversion. Null equals only null; an array or object is
compared by its text with what is neither; all else is compared as in `strictEq`
within a type and by number across types. -/
def looseEq (a b : Data) : Bool :=
  match a, b with
  | .null, .null => true
  | .null, _ | _, .null => false
  | .string _, .string _ | .number _, .number _ => strictEq a b
  | _, _ =>
    if a.isCompound && b.isCompound then strictEq a b
    else if a.isCompound then looseFlat (.string a.display) b
    else if b.isCompound then looseFlat a (.string b.display)
    else looseFlat a b
where
  /-- Two values of which neither is null, an array or an object. -/
  looseFlat (a b : Data) : Bool :=
    match a, b with
    | .string _, .string _ | .number _, .number _ => strictEq a b
    | _, _ => Double.equal a.toNumber b.toNumber

/-- Ordering: texts by their characters, all else by number. Nothing is ordered
against NaN. -/
def compare? (a b : Data) : Option Ordering :=
  match a, b with
  | .string x, .string y =>
    if !isNonFinite x && !isNonFinite y then
      some (if x < y then .lt else if y < x then .gt else .eq)
    else Double.compare? a.toNumber b.toNumber
  | _, _ => Double.compare? a.toNumber b.toNumber

/-- Reads the digits a text begins with as an integer, after blanks and a sign;
a number loses its fraction. -/
def parseInt : Data → Float
  | .number n => Double.mapInteger Double.truncate? n.toFloat
  | value =>
    let (negative, rest) := takeSign (Text.trimStart value.display.toList)
    let digits := rest.takeWhile Char.isDigit
    if digits = [] then Double.nan
    else
      let magnitude := (Decimal.ofDigits digits 0).toFloat
      if negative then -magnitude else magnitude

/-- The longest numeral without sign that a text begins with: digits with at most
one point, then an exponent if it has digits. -/
def numeralPrefix (text : List Char) : List Char :=
  let whole := text.takeWhile Char.isDigit
  let rest := text.dropWhile Char.isDigit
  let (part, rest) :=
    match rest with
    | '.' :: more => ('.' :: more.takeWhile Char.isDigit, more.dropWhile Char.isDigit)
    | _ => ([], rest)
  let mantissa := whole ++ part
  if !mantissa.any Char.isDigit then []
  else
    match rest with
    | e :: more =>
      if e == 'e' || e == 'E' then
        let (sign, digits) :=
          match more with
          | '+' :: digits => (['+'], digits)
          | '-' :: digits => (['-'], digits)
          | digits => ([], digits)
        let digits := digits.takeWhile Char.isDigit
        if digits = [] then mantissa else mantissa ++ e :: (sign ++ digits)
      else mantissa
    | [] => mantissa

/-- Reads the numeral a text begins with, after blanks and a sign. -/
def parseFloat : Data → Float
  | .number n => n.toFloat
  | value =>
    let (negative, rest) := takeSign (Text.trimStart value.display.toList)
    let magnitude :=
      if "Infinity".toList.isPrefixOf rest then 1 / 0
      else (readDouble? (numeralPrefix rest)).getD Double.nan
    if negative then -magnitude else magnitude

/-- How a value found by a reference is written into a page. What is missing or
null is written as nothing, an object as JSON. -/
def stringify : Option Data → String
  | none | some .null => ""
  | some (.object fields) => String.ofList (Json.write (.object fields))
  | some value => value.display

end Data

end HtmlTemplate
