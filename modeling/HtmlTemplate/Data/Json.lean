import HtmlTemplate.Data.Basic
import HtmlTemplate.Data.Json.Form
/-!
Data as JSON text: the compact form in which objects are written, and a reader
for parameter files. The reader keeps integers of at most 64 bits exact and reads
every other number as a double.
-/
namespace HtmlTemplate.Json

/-- A hexadecimal digit. -/
def hexDigit (n : Nat) : Char :=
  if n < 10 then Char.ofNat ('0'.toNat + n) else Char.ofNat ('a'.toNat + (n - 10))

/-- How one character is written inside a quoted text. -/
def escapeChar (c : Char) : List Char :=
  if c = '"' then ['\\', '"']
  else if c = '\\' then ['\\', '\\']
  else if c = '\n' then ['\\', 'n']
  else if c = '\r' then ['\\', 'r']
  else if c = '\t' then ['\\', 't']
  else if c.toNat = 8 then ['\\', 'b']
  else if c.toNat = 12 then ['\\', 'f']
  else if c.toNat < 32 then ['\\', 'u', '0', '0', hexDigit (c.toNat / 16), hexDigit (c.toNat % 16)]
  else [c]

/-- A text between quotation marks. -/
def quote (text : String) : List Char :=
  '"' :: (text.toList.flatMap escapeChar ++ ['"'])

/-- A number as JSON. -/
def numberText : Number → List Char
  | .int n => (toString n).toList
  | .double x => (Double.jsonText x).toList

mutual

/-- A value as compact JSON. -/
def write : Data → List Char
  | .null => "null".toList
  | .bool b => (if b then "true" else "false").toList
  | .number n => numberText n
  | .string text => quote text
  | .array items => '[' :: (writeItems items ++ [']'])
  | .object fields => '\x7b' :: (writeFields fields ++ ['\x7d'])

/-- Values separated by commas. -/
def writeItems : List Data → List Char
  | [] => []
  | [item] => write item
  | item :: next :: rest => write item ++ ',' :: writeItems (next :: rest)

/-- Named values separated by commas. -/
def writeFields : List (String × Data) → List Char
  | [] => []
  | [(name, value)] => quote name ++ ':' :: write value
  | (name, value) :: next :: rest => quote name ++ ':' :: (write value ++ ',' :: writeFields (next :: rest))

end

/-- Reads the inside of a quoted text up to its closing mark. A character beyond
the basic plane may be written as two escaped halves. -/
def readQuoted : (seen : List Char) → List Char → Option (List Char × List Char)
  | seen, '"' :: rest => some (seen.reverse, rest)
  | seen, '\\' :: 'u' :: a :: b :: c :: d :: '\\' :: 'u' :: e :: f :: g :: h :: rest =>
    match hexUnit? a b c d, hexUnit? e f g h with
    | some high, some low =>
      if 0xD800 ≤ high && high < 0xDC00 && 0xDC00 ≤ low && low < 0xE000 then
        readQuoted (Char.ofNat (0x10000 + (high - 0xD800) * 1024 + (low - 0xDC00)) :: seen) rest
      else if 0xD800 ≤ high && high < 0xE000 then none
      else readQuoted (Char.ofNat high :: seen) ('\\' :: 'u' :: e :: f :: g :: h :: rest)
    | _, _ => none
  | seen, '\\' :: 'u' :: a :: b :: c :: d :: rest =>
    match hexUnit? a b c d with
    | some n => if 0xD800 ≤ n && n < 0xE000 then none else readQuoted (Char.ofNat n :: seen) rest
    | none => none
  | seen, '\\' :: c :: rest =>
    match letterEscape? c with
    | some c => readQuoted (c :: seen) rest
    | none => none
  | seen, c :: rest => if c.toNat < 32 then none else readQuoted (c :: seen) rest
  | _, [] => none

/-- Reads a numeral as a finite double. Its exponent is cut only where it is out of
proportion to the digits that any text can hold. -/
def readFloat? (numeral : List Char) : Option Number :=
  (readDoubleWithin? natBound numeral).bind fun x =>
    if Double.isFinite x then some (.double x) else none

/-- Reads a numeral. One without fraction and exponent is an integer, if it fits
into 64 bits with or without a sign. -/
def readNumber? (numeral : List Char) : Option Number :=
  let negative := numeral.head? = some '-'
  let digits := if negative then numeral.drop 1 else numeral
  let integer :=
    if digits.all Char.isDigit then
      (digitsBelow? natBound digits).bind fun size =>
        let n : Int := if negative then -(size : Int) else size
        if -intBound ≤ n && !(n == 0 && negative) then some (Number.int n) else none
    else none
  integer.or (readFloat? numeral)

mutual

/-- Reads one value. The fuel bounds the number of tokens read. -/
def readValue : (fuel : Nat) → List Char → Option (Data × List Char)
  | 0, _ => none
  | fuel + 1, text =>
    match skip text with
    | 'n' :: 'u' :: 'l' :: 'l' :: rest => some (.null, rest)
    | 't' :: 'r' :: 'u' :: 'e' :: rest => some (.bool true, rest)
    | 'f' :: 'a' :: 'l' :: 's' :: 'e' :: rest => some (.bool false, rest)
    | '"' :: rest => (readQuoted [] rest).map fun (text, rest) => (.ofChars text, rest)
    | '[' :: rest =>
      match skip rest with
      | ']' :: rest => some (.array [], rest)
      | rest => (readItems fuel rest).map fun (items, rest) => (.array items, rest)
    | '\x7b' :: rest =>
      match skip rest with
      | '\x7d' :: rest => some (.object [], rest)
      | rest => (readFields fuel rest).map fun (fields, rest) => (.object (Bag.ofList fields), rest)
    | text =>
      (takeNumeral? text).bind fun (numeral, rest) =>
        (readNumber? numeral).map fun n => (.number n, rest)

/-- Reads the items of an array and the bracket that closes it. -/
def readItems : (fuel : Nat) → List Char → Option (List Data × List Char)
  | 0, _ => none
  | fuel + 1, text =>
    match readValue fuel text with
    | none => none
    | some (item, rest) =>
      match skip rest with
      | ',' :: rest => (readItems fuel rest).map fun (items, rest) => (item :: items, rest)
      | ']' :: rest => some ([item], rest)
      | _ => none

/-- Reads the fields of an object and the brace that closes it. -/
def readFields : (fuel : Nat) → List Char → Option (List (String × Data) × List Char)
  | 0, _ => none
  | fuel + 1, text =>
    match skip text with
    | '"' :: rest =>
      match readQuoted [] rest with
      | none => none
      | some (name, rest) =>
        match skip rest with
        | ':' :: rest =>
          match readValue fuel rest with
          | none => none
          | some (value, rest) =>
            let field := (String.ofList name, value)
            match skip rest with
            | ',' :: rest => (readFields fuel rest).map fun (fields, rest) => (field :: fields, rest)
            | '\x7d' :: rest => some ([field], rest)
            | _ => none
        | _ => none
    | _ => none

end

/-- Reads the fields of an object of which only the wanted ones matter, and the
brace that closes it. The others are passed over. -/
def readWantedFields (wanted : String → Bool) : (fuel : Nat) → List Char →
    Option (List (String × Data) × List Char)
  | 0, _ => none
  | fuel + 1, text =>
    match skip text with
    | '"' :: rest => do
      let (name, rest) ← readQuoted [] rest
      let name := String.ofList name
      match skip rest with
      | ':' :: rest => do
        let (field, rest) ←
          if wanted name then (readValue fuel rest).map fun (value, rest) => ([(name, value)], rest)
          else (passValue fuel rest).map fun rest => ([], rest)
        match skip rest with
        | ',' :: rest =>
          (readWantedFields wanted fuel rest).map fun (fields, rest) => (field ++ fields, rest)
        | '\x7d' :: rest => some (field, rest)
        | _ => none
      | _ => none
    | _ => none

/-- Reads an object, of which only the wanted fields matter, each at most once. -/
def readWantedValue (wanted : String → Bool) (fuel : Nat) (text : List Char) :
    Option (Data × List Char) :=
  match skip text with
  | '\x7b' :: rest =>
    match skip rest with
    | '\x7d' :: rest => some (.object [], rest)
    | rest => do
      let (fields, rest) ← readWantedFields wanted fuel rest
      if (fields.map (·.1)).Nodup then some (.object (Bag.ofList fields), rest) else none
  | text => readValue fuel text

/-- What was read of a text, if nothing but white space is left. -/
def whole? : Option (Data × List Char) → Option Data
  | some (value, rest) => if skip rest = [] then some value else none
  | none => none

/-- Reads a whole text as one JSON value. -/
def read? (text : String) : Option Data :=
  whole? (readValue (text.length + 1) text.toList)

/-- Reads a whole text as one JSON value. If that is an object, only the wanted
fields of it matter. -/
def readWanted? (wanted : String → Bool) (text : String) : Option Data :=
  whole? (readWantedValue wanted (text.length + 1) text.toList)

end HtmlTemplate.Json
