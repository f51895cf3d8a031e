import HtmlTemplate.Calendar.Basic
import HtmlTemplate.Number.Decimal
import HtmlTemplate.Text.Blank
/-!
Readers of dates and times. Each reader takes its part off the front of a text;
`Reader` is their common type, so that a format is a sequence of them.
-/
namespace HtmlTemplate.Calendar

/-- A reader gives what it read and the text behind it. -/
abbrev Reader := StateT (List Char) Option

/-- Takes one given character. -/
def literal (c : Char) : Reader Unit := fun text =>
  match text with
  | d :: rest => if c = d then some ((), rest) else none
  | [] => none

/-- Takes digits, at least `least` and at most `most` of them. -/
def number (least most : Nat) : Reader Nat := fun text =>
  let digits := (text.take most).takeWhile Char.isDigit
  if digits.length < least then none
  else some (digitsValue digits, text.drop digits.length)

/-- Skips blanks. -/
def blanks : Reader Unit := fun text =>
  some ((), Text.trimStart text)

/-- Looks at the next character without taking it. -/
def next : Reader (Option Char) := fun text =>
  some (text.head?, text)

/-- Takes all remaining digits. -/
def moreDigits : Reader (List Char) := fun text =>
  some (text.takeWhile Char.isDigit, text.dropWhile Char.isDigit)

/-- Requires a condition. -/
def require (condition : Bool) : Reader Unit := fun text =>
  if condition then some ((), text) else none

/-- A fraction of a second behind a point, in nanoseconds; digits beyond the ninth
do not count. -/
def fraction : Reader Nat := do
  if (← next) = some '.' then
    literal '.'
    let digits ← moreDigits
    require (digits ≠ [])
    let nine := digits.take 9
    return digitsValue nine * Nat.pow 10 (9 - nine.length)
  else return 0

/-- A year, with a sign or of at most four digits. -/
def year : Reader Int := do
  blanks
  match ← next with
  | some '-' =>
    literal '-'
    let digits ← moreDigits
    require (digits ≠ [])
    let size ← StateT.lift (digitsBelow? natBound digits)
    return -(size : Int)
  | some '+' =>
    literal '+'
    let digits ← moreDigits
    require (digits ≠ [])
    let size ← StateT.lift (digitsBelow? natBound digits)
    return size
  | _ => return (← number 1 4)

/-- A field of one or two digits. -/
def field : Reader Nat := do
  blanks
  number 1 2

/-- A date `year-month-day`. -/
def date : Reader CivilDate := do
  let y ← year
  literal '-'
  let m ← field
  literal '-'
  let d ← field
  return ⟨y, m, d⟩

/-- Joins a date, a time of the day and an offset from universal time in seconds.
The second 60 is the leap second behind the second 59. -/
def instant? (d : CivilDate) (hour minute second nanos : Nat) (offset : Int) : Option Instant :=
  if d.isValid && Instant.yearInRange d.year && hour < 24 && minute < 60 && second ≤ 60 then
    let leap := second = 60
    let inDay : Int := hour * 3600 + minute * 60 + (if leap then 59 else second : Nat)
    some ⟨d.toDays * 86400 + inDay - offset, nanos + if leap then 1000000000 else 0⟩
  else none

/-- An offset `+hh:mm` or `-hh:mm` in seconds, or a `Z` for none. -/
def offset : Reader Int := do
  match ← next with
  | some 'Z' => literal 'Z'; return 0
  | some 'z' => literal 'z'; return 0
  | some c =>
    require (c = '+' || c = '-' || c = '\u2212')
    literal c
    let hours ← number 2 2
    literal ':'
    let minutes ← number 2 2
    require (hours < 24 && minutes < 60)
    let seconds : Int := hours * 3600 + minutes * 60
    return if c = '+' then seconds else -seconds
  | none => failure

/-- A date and time with every field in full and an offset, such as
`2024-03-09T14:05:07.250Z`. -/
def complete : Reader (Option Instant) := do
  let y ← number 4 4
  literal '-'
  let m ← number 2 2
  literal '-'
  let d ← number 2 2
  let separator ← next
  require (separator = some 'T' || separator = some 't' || separator = some ' ')
  literal (separator.getD 'T')
  let hour ← number 2 2
  literal ':'
  let minute ← number 2 2
  literal ':'
  let second ← number 2 2
  let nanos ← fraction
  let shift ← offset
  return instant? ⟨y, m, d⟩ hour minute second nanos shift

/-- A date alone means its midnight. -/
def dateOnly : Reader (Option Instant) := do
  let d ← date
  return instant? d 0 0 0 0 0

/-- A date and a time with a `T` between them and no offset. -/
def dateTime : Reader (Option Instant) := do
  let d ← date
  literal 'T'
  let hour ← field
  literal ':'
  let minute ← field
  literal ':'
  let second ← field
  let nanos ← fraction
  return instant? d hour minute second nanos 0

/-- A date and a time without seconds. -/
def dateMinute : Reader (Option Instant) := do
  let d ← date
  literal 'T'
  let hour ← field
  literal ':'
  let minute ← field
  return instant? d hour minute 0 0 0

/-- A date and a time with blanks between them. -/
def dateBlankTime : Reader (Option Instant) := do
  let d ← date
  blanks
  let hour ← field
  literal ':'
  let minute ← field
  literal ':'
  let second ← field
  return instant? d hour minute second 0 0

/-- Runs a reader on a whole text. -/
def whole (reader : Reader (Option Instant)) (text : List Char) : Option Instant :=
  match reader text with
  | some (some t, []) => some t
  | _ => none

/-- Reads a text in the first format it has, the last of which is a number of
milliseconds. -/
def read? (text : List Char) : Option Instant :=
  (whole complete text).or <| (whole dateOnly text).or <| (whole dateTime text).or <|
    (whole dateMinute text).or <| (whole dateBlankTime text).or <|
      (readInteger? text).bind Instant.ofMillis?

end HtmlTemplate.Calendar
