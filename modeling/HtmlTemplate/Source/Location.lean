import HtmlTemplate.Text.Blank
/-!
Places in template files.
-/
namespace HtmlTemplate

/-- A line and column of a file. -/
structure Location where
  file : String
  line : Nat
  column : Nat
  deriving Repr, DecidableEq

/-- The characters of a file name as they stand in a URL: every run of blanks is
written `%20`. -/
def urlCharacters : (inBlank : Bool) → List Char → List Char
  | _, [] => []
  | inBlank, c :: rest =>
    if Text.isBlank c then
      (if inBlank then [] else ['%', '2', '0']) ++ urlCharacters true rest
    else c :: urlCharacters false rest

/-- A location as a `file` URL with line and column. -/
def Location.text (l : Location) : String :=
  "file:///" ++ String.ofList (urlCharacters false l.file.toList) ++ ":" ++
    toString l.line ++ ":" ++ toString l.column

/-- The characters from `start` up to `stop` of a source text, with the line and
column the scanner reports for them. -/
structure Span where
  start : Nat
  stop : Nat
  line : Nat
  column : Nat
  deriving Repr, DecidableEq

end HtmlTemplate
