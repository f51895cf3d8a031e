import HtmlTemplate.Builtin.Basic
import HtmlTemplate.Text.LetterCase
import HtmlTemplate.Text.Search
/-!
Functions on texts, as members of the group `string` and as methods of texts in
expressions. Positions count characters.
-/
namespace HtmlTemplate.Builtin.Text

open HtmlTemplate.Text

/-- The first argument as a text; null reads as empty. -/
def subject (args : List Data) : List Char :=
  match argument args 0 with
  | .null => []
  | value => value.display.toList

/-- The character at a position, or the empty text. -/
def charAt (text : List Char) (position : Data) : Data :=
  match (Position.ofData position).index? text.length with
  | some i => .ofChars ((text.drop i).take 1)
  | none => .string ""

/-- The code of the character at a position. -/
def charCodeAt (text : List Char) (position : Data) : Data :=
  match (Position.ofData position).index? text.length with
  | some i =>
    match text[i]? with
    | some c => .ofInt c.toNat
    | none => .string "NaN"
  | none => .string "NaN"

/-- The character at a position counted from the end if negative, or null. -/
def relativeCharAt (text : List Char) (position : Data) : Data :=
  match (Position.ofData position).relativeIndex? text.length with
  | some i => .ofChars ((text.drop i).take 1)
  | none => .null

/-- The part between two boundaries, of which negative ones count from the end. -/
def slice (text : List Char) (start stop : Data) : Data :=
  .ofChars (sliceOf text start stop)

/-- A boundary of `substring`: negative ones are the beginning, null is
`default`. -/
def substringBoundary (length default : Nat) : Data → Nat
  | .null => default
  | value => (Position.ofData value).clamp length

/-- The part between two boundaries in either order. -/
def substring (text : List Char) (start stop : Data) : Data :=
  let a := substringBoundary text.length 0 start
  let b := substringBoundary text.length text.length stop
  .ofChars ((text.take (max a b)).drop (min a b))

/-- The number of characters before the first occurrence of a text, or `-1`. -/
def indexOf (text part : List Char) : Data :=
  match find? part text with
  | some i => .ofInt i
  | none => .ofInt (-1)

/-- The greatest number of bytes that `repeat` builds. -/
def maxBytes : Nat := 536870912

/-- A text `n` times over, put together by halves. -/
def times (text : String) (n : Nat) : String :=
  if n = 0 then ""
  else
    let half := times text (n / 2)
    if n % 2 = 0 then half ++ half else half ++ half ++ text

theorem toList_times (text : String) (n : Nat) :
    (times text n).toList = (List.replicate n text.toList).flatten := by
  fun_induction times text n with
  | case1 => simp
  | case2 n _ half even ih =>
    have halves : n / 2 + n / 2 = n := by omega
    have split := congrArg (List.replicate · text.toList) halves
    simp only [← split, ← List.replicate_append_replicate, List.flatten_append,
      String.toList_append, half, ih]
  | case3 n _ half odd ih =>
    have halves : n / 2 + n / 2 + 1 = n := by omega
    have split := congrArg (List.replicate · text.toList) halves
    simp only [← split, ← List.replicate_append_replicate, List.flatten_append,
      String.toList_append, half, ih, List.replicate_one, List.flatten_singleton]

/-- A text so many times over as a value says. -/
def repeated (text : String) (count : Data) : Except EvalError Data :=
  match Position.ofData count with
  | .before => .error (.invalidCount (-1 / 0))
  | .behind => .error (.invalidCount (1 / 0))
  | .at n =>
    if n < 0 then .error (.invalidCount (Float.ofInt n))
    else if text = "" then .ok (.string "")
    else if maxBytes < text.utf8ByteSize * n.toNat then .error .textTooLong
    else .ok (.string (times text n.toNat))

/-- Puts a text in place of the first occurrence of another, or of all. -/
def replaced (all : Bool) (text : List Char) (part replacement : Data) : Data :=
  let part := part.display.toList
  let replacement := replacement.display.toList
  .ofChars (if all then replaceAll part replacement text else replaceFirst part replacement text)

/-- The pieces of a text between separators; its characters, if the separator is
empty, and the whole text, if it is null. -/
def split (text : List Char) : Data → Data
  | .null => .array [.ofChars text]
  | separator =>
    match separator.display.toList with
    | [] => .array (text.map fun c => .ofChars [c])
    | part => .array ((pieces part text).map .ofChars)

/-- The texts of all arguments in a row. -/
def joined (args : List Data) : String :=
  String.join (args.map Data.display)

/-- A method of a text, if it has one of that name. -/
def method? (text : String) (name : String) (args : List Data) : Option (Except EvalError Data) :=
  let chars := text.toList
  let first := argument args 0
  let second := argument args 1
  let part := first.display.toList
  match name with
  | "toUpperCase" => some (.ok (.ofChars (upper chars)))
  | "toLowerCase" => some (.ok (.ofChars (lower chars)))
  | "trim" => some (.ok (.ofChars (trim chars)))
  | "trimStart" => some (.ok (.ofChars (trimStart chars)))
  | "trimEnd" => some (.ok (.ofChars (trimEnd chars)))
  | "includes" => some (.ok (.bool (includes part chars)))
  | "startsWith" => some (.ok (.bool (part.isPrefixOf chars)))
  | "endsWith" => some (.ok (.bool (part.isSuffixOf chars)))
  | "indexOf" => some (.ok (indexOf chars part))
  | "slice" => some (.ok (slice chars first second))
  | "substring" => some (.ok (substring chars first second))
  | "charAt" => some (.ok (charAt chars first))
  | "charCodeAt" => some (.ok (charCodeAt chars first))
  | "at" => some (.ok (relativeCharAt chars first))
  | "repeat" => some (repeated text first)
  | "replace" => some (.ok (replaced false chars first second))
  | "replaceAll" => some (.ok (replaced true chars first second))
  | "split" => some (.ok (split chars first))
  | "concat" => some (.ok (.string (text ++ joined args)))
  | "toString" => some (.ok (.string text))
  | _ => none

/-- The functions of the group `string`. -/
def functions : List Builtin := [
  .total "length" fun args => .ofInt (subject args).length,
  .total "upper" fun args => .ofChars (upper (subject args)),
  .total "lower" fun args => .ofChars (lower (subject args)),
  .total "at" fun args => charAt (subject args) (argument args 1),
  .total "codeAt" fun args => charCodeAt (subject args) (argument args 1),
  .total "slice" fun args => slice (subject args) (argument args 1) (argument args 2),
  .total "subString" fun args => substring (subject args) (argument args 1) (argument args 2),
  .total "concat" fun args => .string (joined args),
  .total "trim" fun args => .ofChars (trim (subject args)),
  .total "trimStart" fun args => .ofChars (trimStart (subject args)),
  .total "trimEnd" fun args => .ofChars (trimEnd (subject args)),
  ⟨"repeat", fun args => repeated (String.ofList (subject args)) (argument args 1)⟩,
  .total "replace" fun args => replaced false (subject args) (argument args 1) (argument args 2),
  .total "replaceAll" fun args => replaced true (subject args) (argument args 1) (argument args 2),
  .total "split" fun args => split (subject args) (argument args 1)]

end HtmlTemplate.Builtin.Text
