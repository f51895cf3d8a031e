import HtmlTemplate.Data.Coercion
import HtmlTemplate.Data.Path
import HtmlTemplate.Source.Lexeme
import HtmlTemplate.Text.Quoted
import HtmlTemplate.Text.Search
/-!
References `@( … )` in markup and their substitution by parameter values.

Substitution runs more than once over a page: a loop, a slot and a component each
put their own parameters in. What was put in must not be read as a reference by a
later run, so every `@(` that comes from data is written with a stand-in for its
`@`, which is taken back when the page is complete.
-/
namespace HtmlTemplate

/-- The character that stands in for the `@` of a `@(` in inserted text. -/
def shieldMark : Char := '\ue000'

/-- Marks every `@(` of a text that comes from data. -/
def shield : List Char → List Char
  | [] => []
  | [c] => [c]
  | c :: d :: rest =>
    if c = '@' && d = '(' then shieldMark :: shield (d :: rest) else c :: shield (d :: rest)

/-- Takes the marks back. -/
def unshield (text : List Char) : List Char :=
  text.map fun c => if c = shieldMark then '@' else c

/-- The text of a reference: the value of a path, or of the alternative behind
`||` when that value does not count as true. The alternative is a quoted literal
or a path. -/
def resolveReference (bag : Bag) (inner : List Char) : String :=
  let inner := Text.trim inner
  match Text.splitFirst? "||".toList inner with
  | none => Data.stringify (bag.lookup? (String.ofList inner))
  | some (left, right) =>
    match (bag.lookup? (String.ofList (Text.trim left))).filter Data.truthy with
    | some value => Data.stringify (some value)
    | none =>
      let right := Text.trim right
      match Text.unquote? right with
      | some literal => String.ofList literal
      | none => Data.stringify (bag.lookup? (String.ofList right))

/-- What stands inside a reference, behind its opening parenthesis, and what
follows its closing one. A reference does not go beyond its line. -/
def referenceInner? (text : List Char) : Option (List Char × List Char) :=
  let inside (c : Char) : Bool := c ≠ ')' && c ≠ '\n'
  match text.dropWhile inside with
  | ')' :: after => some (text.takeWhile inside, after)
  | _ => none

theorem length_referenceInner? {text inner after : List Char}
    (h : referenceInner? text = some (inner, after)) : after.length < text.length := by
  have shorter := Text.length_dropWhile_le (fun c => c ≠ ')' && c ≠ '\n') text
  unfold referenceInner? at h
  dsimp only at h
  split at h
  · next found =>
    simp only [Option.some.injEq, Prod.mk.injEq] at h
    rw [found, List.length_cons, h.2] at shorter
    omega
  · simp at h

/-- Whether a character may follow the name in a tag that opens an element. -/
def endsElementName (c : Char) : Bool :=
  c = '>' || c = '/' || Text.isBlank c

/-- Whether a raw element of a given name is opened by the text behind a `<`. -/
def opensRaw (name : String) (text : List Char) : Bool :=
  match Text.dropPrefixIgnoringCase? name.toList text with
  | some (c :: _) => endsElementName c
  | _ => false

/-- If a raw element is opened by the text behind a `<`, how many characters of that
text belong to the element; at least all of them if nothing closes it. -/
def rawElementLength? (text : List Char) : Option Nat :=
  (["style", "script"].find? (opensRaw · text)).map fun name =>
    let content := Source.beforeClosing ('<' :: '/' :: name.toList) text
    let closing := (text.drop content.length).takeWhile (· ≠ '>')
    content.length + closing.length + 1

/-- Puts parameter values in place of the references of a text, except inside of
raw elements. -/
def substitute (bag : Bag) (text : List Char) : List Char :=
  match text with
  | [] => []
  | c :: rest =>
    if c = '@' && rest.head? = some '(' then
      match _inner : referenceInner? (rest.drop 1) with
      | some (inner, after) =>
        shield (resolveReference bag inner).toList ++ substitute bag after
      | none => c :: substitute bag rest
    else if c = '<' then
      match rawElementLength? rest with
      | some length => c :: (rest.take length ++ substitute bag (rest.drop length))
      | none => c :: substitute bag rest
    else c :: substitute bag rest
termination_by text.length
decreasing_by
  · have := length_referenceInner? _inner
    simp only [List.length_drop] at this
    simp only [List.length_cons]
    omega
  · simp
  · simp only [List.length_drop, List.length_cons]
    omega
  · simp
  · simp

/-- Puts parameter values in place of the references of a page. -/
def Bag.substitute (bag : Bag) (html : String) : String :=
  String.ofList (HtmlTemplate.substitute bag html.toList)

end HtmlTemplate
