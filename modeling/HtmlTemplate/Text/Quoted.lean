/-!
Texts between quotes.
-/
namespace HtmlTemplate.Text

/-- What stands between matching quotes of any of the three kinds. -/
def unquote? (text : List Char) : Option (List Char) :=
  match text with
  | quote :: rest =>
    if (quote = '"' || quote = '\'' || quote = '\x60') && rest.getLast? = some quote then
      some rest.dropLast
    else none
  | [] => none

end HtmlTemplate.Text
