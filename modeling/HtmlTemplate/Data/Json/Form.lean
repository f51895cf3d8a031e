/-!
The form of JSON text. A value can be passed over without being read, which asks
for its form only: a number may be beyond all bounds then, and an escape may name
half of a character.
-/
namespace HtmlTemplate.Json

/-- Drops the white space that may stand between tokens. -/
def skip (text : List Char) : List Char :=
  text.dropWhile fun c => c == ' ' || c == '\n' || c == '\r' || c == '\t'

/-- The value of a hexadecimal digit. -/
def hexValue? (c : Char) : Option Nat :=
  if '0' ≤ c && c ≤ '9' then some (c.toNat - '0'.toNat)
  else if 'a' ≤ c && c ≤ 'f' then some (c.toNat - 'a'.toNat + 10)
  else if 'A' ≤ c && c ≤ 'F' then some (c.toNat - 'A'.toNat + 10)
  else none

/-- The value of four hexadecimal digits. -/
def hexUnit? (a b c d : Char) : Option Nat := do
  let a ← hexValue? a
  let b ← hexValue? b
  let c ← hexValue? c
  let d ← hexValue? d
  return ((a * 16 + b) * 16 + c) * 16 + d

/-- The character behind a one-letter escape. -/
def letterEscape? (c : Char) : Option Char :=
  match c with
  | '"' => some '"'
  | '\\' => some '\\'
  | '/' => some '/'
  | 'b' => some (Char.ofNat 8)
  | 'f' => some (Char.ofNat 12)
  | 'n' => some '\n'
  | 'r' => some '\r'
  | 't' => some '\t'
  | _ => none

/-- Takes digits off the front of a text, at least one. -/
def takeDigits? (text : List Char) : Option (List Char × List Char) :=
  match text.takeWhile Char.isDigit with
  | [] => none
  | digits => some (digits, text.dropWhile Char.isDigit)

/-- Takes the integer a number begins with; zero stands alone. -/
def takeWhole? : List Char → Option (List Char × List Char)
  | '0' :: rest => if rest.head?.any Char.isDigit then none else some (['0'], rest)
  | text => takeDigits? text

/-- Takes the fraction of a number, if there is one. -/
def takeFraction? : List Char → Option (List Char × List Char)
  | '.' :: rest => (takeDigits? rest).map fun (digits, rest) => ('.' :: digits, rest)
  | text => some ([], text)

/-- Takes the exponent of a number, if there is one. -/
def takeExponent? : List Char → Option (List Char × List Char)
  | [] => some ([], [])
  | e :: rest =>
    if e = 'e' || e = 'E' then
      let (sign, rest) :=
        match rest with
        | '+' :: rest => (['+'], rest)
        | '-' :: rest => (['-'], rest)
        | rest => ([], rest)
      (takeDigits? rest).map fun (digits, rest) => (e :: (sign ++ digits), rest)
    else some ([], e :: rest)

/-- Takes a number off the front of a text. -/
def takeNumeral? (text : List Char) : Option (List Char × List Char) := do
  let (sign, rest) :=
    match text with
    | '-' :: rest => (['-'], rest)
    | text => ([], text)
  let (whole, rest) ← takeWhole? rest
  let (fraction, rest) ← takeFraction? rest
  let (exponent, rest) ← takeExponent? rest
  return (sign ++ whole ++ fraction ++ exponent, rest)

/-- Passes over the inside of a quoted text and its closing mark. -/
def passQuoted : List Char → Option (List Char)
  | [] => none
  | '"' :: rest => some rest
  | '\\' :: 'u' :: a :: b :: c :: d :: rest =>
    if (hexUnit? a b c d).isSome then passQuoted rest else none
  | '\\' :: c :: rest => if (letterEscape? c).isSome then passQuoted rest else none
  | c :: rest => if c.toNat < 32 then none else passQuoted rest

mutual

/-- Passes over one value. The fuel bounds the number of tokens passed. -/
def passValue : (fuel : Nat) → List Char → Option (List Char)
  | 0, _ => none
  | fuel + 1, text =>
    match skip text with
    | 'n' :: 'u' :: 'l' :: 'l' :: rest => some rest
    | 't' :: 'r' :: 'u' :: 'e' :: rest => some rest
    | 'f' :: 'a' :: 'l' :: 's' :: 'e' :: rest => some rest
    | '"' :: rest => passQuoted rest
    | '[' :: rest =>
      match skip rest with
      | ']' :: rest => some rest
      | rest => passItems fuel rest
    | '\x7b' :: rest =>
      match skip rest with
      | '\x7d' :: rest => some rest
      | rest => passFields fuel rest
    | text => (takeNumeral? text).map (·.2)

/-- Passes over the items of an array and the bracket that closes it. -/
def passItems : (fuel : Nat) → List Char → Option (List Char)
  | 0, _ => none
  | fuel + 1, text => do
    let rest ← passValue fuel text
    match skip rest with
    | ',' :: rest => passItems fuel rest
    | ']' :: rest => some rest
    | _ => none

/-- Passes over the fields of an object and the brace that closes it. -/
def passFields : (fuel : Nat) → List Char → Option (List Char)
  | 0, _ => none
  | fuel + 1, text =>
    match skip text with
    | '"' :: rest => do
      let rest ← passQuoted rest
      match skip rest with
      | ':' :: rest => do
        let rest ← passValue fuel rest
        match skip rest with
        | ',' :: rest => passFields fuel rest
        | '\x7d' :: rest => some rest
        | _ => none
      | _ => none
    | _ => none

end

end HtmlTemplate.Json
