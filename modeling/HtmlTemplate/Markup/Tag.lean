import HtmlTemplate.Markup.Reference
import HtmlTemplate.Source.Scanner
/-!
Tags of markup: the element they name, their attributes, and where the content of
an element ends. A tag of another shape than these names no element.
-/
namespace HtmlTemplate

/-- The name and the attribute text of a tag that opens an element or closes
itself. A slash before the final `>` is no part of the attributes. -/
def tagParts? : (tag : List Char) → Option (List Char × List Char)
  | '<' :: rest =>
    let name := rest.takeWhile Source.isNameChar
    let attributes := (rest.dropWhile Source.isNameChar).takeWhile (· ≠ '>')
    if name ≠ [] && (rest.dropWhile Source.isNameChar).dropWhile (· ≠ '>') = ['>'] then
      some (name, if attributes.getLast? = some '/' then attributes.dropLast else attributes)
    else none
  | _ => none

/-- The name of a tag that closes an element. -/
def closingName? : (tag : List Char) → Option (List Char)
  | '<' :: '/' :: rest =>
    let named := rest.dropWhile Text.isBlank
    let name := named.takeWhile Source.isNameChar
    if name ≠ [] && (named.dropWhile Source.isNameChar).dropWhile Text.isBlank = ['>'] then
      some name
    else none
  | _ => none

/-- The element that a token opens, or closes within the same tag. -/
def Token.element? (t : Token) : Option String :=
  (tagParts? t.value.toList).map fun (name, _) => String.ofList name

/-- The element that a token closes. -/
def Token.closedElement? (t : Token) : Option String :=
  (closingName? t.value.toList).map String.ofList

/-- Where an attribute takes its value from: a text between quotation marks, or a
reference `@( … )`. -/
inductive AttributeValue where
  | quoted (text : List Char)
  | reference (path : List Char)
  deriving Repr, DecidableEq

/-- The attribute value a text begins with, and what follows it. -/
def attributeValue? : List Char → Option (AttributeValue × List Char)
  | '"' :: rest =>
    match rest.dropWhile (· ≠ '"') with
    | _ :: after => some (.quoted (rest.takeWhile (· ≠ '"')), after)
    | [] => none
  | '@' :: '(' :: rest =>
    match rest.dropWhile (· ≠ ')') with
    | _ :: after => some (.reference (rest.takeWhile (· ≠ ')')), after)
    | [] => none
  | _ => none

theorem length_attributeValue? {text after : List Char} {value : AttributeValue}
    (h : attributeValue? text = some (value, after)) : after.length < text.length := by
  unfold attributeValue? at h
  split at h
  · next rest =>
    have := Text.length_dropWhile_le (· ≠ '"') rest
    split at h
    · next last found =>
      simp only [Option.some.injEq, Prod.mk.injEq] at h
      rw [found] at this
      simp only [List.length_cons] at this ⊢
      rw [← h.2]
      omega
    · simp at h
  · next rest =>
    have := Text.length_dropWhile_le (· ≠ ')') rest
    split at h
    · next last found =>
      simp only [Option.some.injEq, Prod.mk.injEq] at h
      rw [found] at this
      simp only [List.length_cons] at this ⊢
      rw [← h.2]
      omega
    · simp at h
  · simp at h

/-- The named values in the attribute text of a tag. All else in it is passed
over. -/
def attributes (text : List Char) : List (String × AttributeValue) :=
  match text with
  | [] => []
  | c :: rest =>
    if Source.isNameChar c then
      let name := c :: rest.takeWhile Source.isNameChar
      match _equals : rest.dropWhile Source.isNameChar with
      | '=' :: after =>
        match _value : attributeValue? after with
        | some (value, last) => (String.ofList name, value) :: attributes last
        | none => attributes after
      | after => attributes after
    else attributes rest
termination_by text.length
decreasing_by
  · have := Text.length_dropWhile_le Source.isNameChar rest
    have := length_attributeValue? _value
    simp only [_equals, List.length_cons] at *
    omega
  · have := Text.length_dropWhile_le Source.isNameChar rest
    simp only [_equals, List.length_cons] at *
    omega
  · have := Text.length_dropWhile_le Source.isNameChar rest
    simp only [_equals, List.length_cons] at *
    omega
  · simp

/-- The value of an attribute under some parameters. A reference that leads
nowhere is null. -/
def AttributeValue.resolve (bag : Bag) : AttributeValue → Data
  | .quoted text => .ofChars (substitute bag text)
  | .reference path => (bag.lookup? (String.ofList path)).getD .null

/-- The values of the attributes of a tag; of two with one name the later
counts. -/
def attributeBag (bag : Bag) (text : List Char) : Bag :=
  Bag.ofList ((attributes text).map fun (name, value) => (name, value.resolve bag))

/-- Whether a token opens an element of a name. -/
def Token.opens (t : Token) (name : String) : Bool :=
  t.kind = .openingTag && t.element? = some name

/-- Whether a token closes an element of a name. -/
def Token.closes (t : Token) (name : String) : Bool :=
  t.kind = .closingTag && t.closedElement? = some name

/-- The content of an element, with `depth` elements of its name open inside of
it, and the tokens behind its closing tag. -/
def splitContent? (name : String) : (depth : Nat) → List Token → Option (List Token × List Token)
  | _, [] => none
  | depth, t :: rest =>
    if t.opens name then
      (splitContent? name (depth + 1) rest).map fun (content, after) => (t :: content, after)
    else if t.closes name then
      match depth with
      | 0 => some ([], rest)
      | depth + 1 =>
        (splitContent? name depth rest).map fun (content, after) => (t :: content, after)
    else (splitContent? name depth rest).map fun (content, after) => (t :: content, after)

/-- Splitting off the content of an element takes tokens away and the closing tag
with them. -/
theorem splitContent?_eq_some {name : String} {depth : Nat} {tokens content after : List Token}
    (h : splitContent? name depth tokens = some (content, after)) :
    ∃ t, t.closes name ∧ tokens = content ++ t :: after := by
  fun_induction splitContent? name depth tokens generalizing content with
  | case1 => simp at h
  | case2 _ t rest _ ih =>
    simp only [Option.map_eq_some_iff, Prod.mk.injEq] at h
    obtain ⟨⟨inner, last⟩, found, rfl, rfl⟩ := h
    obtain ⟨t, closes, rfl⟩ := ih found
    exact ⟨t, closes, rfl⟩
  | case3 t rest _ closes =>
    simp only [Option.some.injEq, Prod.mk.injEq] at h
    obtain ⟨rfl, rfl⟩ := h
    exact ⟨t, closes, rfl⟩
  | case4 t rest _ _ depth ih =>
    simp only [Option.map_eq_some_iff, Prod.mk.injEq] at h
    obtain ⟨⟨inner, last⟩, found, rfl, rfl⟩ := h
    obtain ⟨t, closes, rfl⟩ := ih found
    exact ⟨t, closes, rfl⟩
  | case5 _ t rest _ _ ih =>
    simp only [Option.map_eq_some_iff, Prod.mk.injEq] at h
    obtain ⟨⟨inner, last⟩, found, rfl, rfl⟩ := h
    obtain ⟨t, closes, rfl⟩ := ih found
    exact ⟨t, closes, rfl⟩

end HtmlTemplate
