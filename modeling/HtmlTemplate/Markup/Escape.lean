import HtmlTemplate.Data.Basic
/-!
Escaping of parameter data, so that no text in it is read as markup. The data as
it was given stays within reach under a key of its own.
-/
namespace HtmlTemplate

/-- How a character of data is written in markup. -/
def escapeChar : Char → List Char
  | '&' => "&amp;".toList
  | '<' => "&lt;".toList
  | '>' => "&gt;".toList
  | '"' => "&quot;".toList
  | '\'' => "&#039;".toList
  | c => [c]

/-- A text as it is written in markup. -/
def escapeHtml (text : List Char) : List Char :=
  text.flatMap escapeChar

theorem escapeHtml_append (s t : List Char) : escapeHtml (s ++ t) = escapeHtml s ++ escapeHtml t :=
  List.flatMap_append

namespace Data

mutual

/-- A value with all texts in it escaped, but not the names of fields. -/
def escape : Data → Data
  | .string text => .ofChars (escapeHtml text.toList)
  | .array items => .array (escapeItems items)
  | .object fields => .object (escapeFields fields)
  | value => value

def escapeItems : List Data → List Data
  | [] => []
  | item :: rest => item.escape :: escapeItems rest

def escapeFields : List (String × Data) → List (String × Data)
  | [] => []
  | (name, value) :: rest => (name, value.escape) :: escapeFields rest

end

end Data

/-- The key under which the data as it was given stays within reach. -/
def rawKey : String := "_"

/-- Escaped parameters, with the given ones under `rawKey`. -/
def Bag.sanitize (bag : Bag) : Bag :=
  Bag.insert rawKey (.object bag) (Data.escapeFields bag)

end HtmlTemplate
