import HtmlTemplate.Builtin.Basic
import HtmlTemplate.Calendar.Reader
/-!
Date functions, the members of the group `date`. A date is given by a text in one
of the formats of `Calendar.read?` or by the number of milliseconds since the
beginning of 1970. The local time is universal time.
-/
namespace HtmlTemplate.Builtin.Date

/-- An integer cut to the range of 64 bits with sign. -/
def saturate (n : Int) : Int :=
  max (-intBound) (min (intBound - 1) n)

/-- The milliseconds a number means: the number without its fraction. -/
def millis : HtmlTemplate.Number → Int
  | .int n => saturate n
  | .double x => saturate ((Double.truncate? x).getD 0)

/-- The instant a value means. -/
def instant? : Data → Option Instant
  | .number n => Instant.ofMillis? (millis n)
  | .string text => Calendar.read? (Text.trim text.toList)
  | _ => none

/-- A function that computes an integer from the instant its first argument means,
and NaN if that means none. -/
def getter (name : String) (get : Instant → Int) : Builtin :=
  .total name fun args =>
    match instant? (argument args 0) with
    | some t => .ofInt (get t)
    | none => .string "NaN"

def year (t : Instant) : Int := t.date.year

/-- The month, January being 0. -/
def month (t : Instant) : Int := (t.date.month : Int) - 1

def day (t : Instant) : Int := t.date.day

/-- The functions of the group `date`. A page is a function of its parameters, so
that the present is always the beginning of 1970. -/
def functions : List Builtin := [
  getter "getFullYear" year,
  getter "getMonth" month,
  getter "getDate" day,
  getter "getHours" Instant.hour,
  getter "getMin" Instant.minute,
  getter "getSec" Instant.second,
  getter "getMs" Instant.milli,
  getter "getDay" Instant.weekday,
  getter "getTime" Instant.toMillis,
  .total "getNow" fun _ => .ofInt 0,
  getter "getUTCFullYear" year,
  getter "getUTCMonth" month,
  getter "getUTCDate" day,
  getter "getUTCHours" Instant.hour,
  getter "getUTCMin" Instant.minute,
  getter "getUTCSec" Instant.second,
  getter "getUTCMs" Instant.milli,
  getter "getUTCDay" Instant.weekday,
  getter "getTimezoneOffset" fun _ => 0]

end HtmlTemplate.Builtin.Date
