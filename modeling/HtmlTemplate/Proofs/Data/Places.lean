import HtmlTemplate.Data.Coercion

/-! Places inside of values, and how what stands there is written. An array is written as a list
of the texts of its items, an object as JSON; the text of an item of an array is the same wherever
the array stands in arrays, and the JSON of a field is the same wherever the object stands in
JSON. -/
namespace HtmlTemplate

/-- A place inside of a value: the value itself, or a place inside of an item of an array or a
field of an object, which have others before and after them. -/
inductive Place where
  | here
  | item (before : List Data) (inner : Place) (after : List Data)
  | field (before : List (String × Data)) (name : String) (inner : Place)
      (after : List (String × Data))

/-- The text of an item of an array. -/
def Data.itemText : Data → List Char
  | .null => []
  | value => value.display.toList

/-- A field of an object as JSON. -/
def Json.fieldText (field : String × Data) : List Char :=
  quote field.1 ++ ':' :: write field.2

theorem Data.toList_displayItems (items : List Data) :
    (displayItems items).map String.toList = items.map itemText := by
  induction items with
  | nil => rfl
  | cons item rest ih =>
      cases item <;> exact congrArg (_ :: ·) ih

theorem Data.itemText_array (items : List Data) :
    itemText (.array items) = [','].intercalate (items.map itemText) := by
  rw [itemText, display, String.toList_intercalate, toList_displayItems]
  · rfl
  · exact nofun

theorem Json.writeItems_eq (items : List Data) :
    writeItems items = [','].intercalate (items.map write) := by
  match items with
  | [] => rfl
  | [item] => exact List.intercalate_singleton.symm
  | item :: next :: rest =>
      rw [writeItems, writeItems_eq (next :: rest)]
      simp [List.intercalate_cons_cons]

theorem Json.writeFields_eq (fields : List (String × Data)) :
    writeFields fields = [','].intercalate (fields.map fieldText) := by
  match fields with
  | [] => rfl
  | [(name, value)] => exact List.intercalate_singleton.symm
  | (name, value) :: next :: rest =>
      rw [writeFields, writeFields_eq (next :: rest)]
      simp [List.intercalate_cons_cons, fieldText]

namespace Place

/-- The value that has a given one at the place. -/
def fill (value : Data) : Place → Data
  | here => value
  | item before inner after => .array (before ++ inner.fill value :: after)
  | field before name inner after => .object (before ++ (name, inner.fill value) :: after)

/-- The text of a value as an item of a list, given the text of what is at the place. -/
def listText (text : List Char) : Place → List Char
  | here => text
  | item before inner after =>
    [','].intercalate (before.map Data.itemText ++ inner.listText text :: after.map Data.itemText)
  | field .. => Data.itemText (.object [])

/-- A value as JSON, given the JSON of what is at the place. -/
def jsonText (text : List Char) : Place → List Char
  | here => text
  | item before inner after =>
    '[' :: ([','].intercalate
      (before.map Json.write ++ inner.jsonText text :: after.map Json.write) ++ [']'])
  | field before name inner after =>
    '\x7b' :: ([','].intercalate (before.map Json.fieldText ++
      (Json.quote name ++ ':' :: inner.jsonText text) :: after.map Json.fieldText) ++ ['\x7d'])

/-- Only arrays are around the place. -/
def InLists : Place → Prop
  | here => True
  | item _ inner _ => inner.InLists
  | field .. => False

/-- The place is inside of a field. -/
def InField : Place → Prop
  | field .. => True
  | _ => False

theorem itemText_fill (value : Data) (place : Place) :
    Data.itemText (place.fill value) = place.listText value.itemText := by
  induction place with
  | here => rfl
  | item before inner after ih =>
      rw [fill, Data.itemText_array, List.map_append, List.map_cons, ih]
      rfl
  | field before name inner after _ => rfl

theorem write_fill (value : Data) (place : Place) :
    Json.write (place.fill value) = place.jsonText (Json.write value) := by
  induction place with
  | here => rfl
  | item before inner after ih =>
      rw [fill, Json.write, Json.writeItems_eq, List.map_append, List.map_cons, ih]
      rfl
  | field before name inner after ih =>
      rw [fill, Json.write, Json.writeFields_eq, List.map_append, List.map_cons, Json.fieldText, ih]
      rfl

/-- What a reference writes for a value, given the text of what is at the place. -/
def writtenText (text : List Char) (place : Place) : List Char :=
  match place with
  | field .. => place.jsonText text
  | _ => place.listText text

/-- What is at the place is seen: no object is within a list. -/
def Shown (place : Place) : Prop :=
  place.InLists ∨ place.InField

/-- A value with a field that the place is in is written as JSON. -/
theorem toList_stringify_of_inField {place : Place} (h : place.InField) (value : Data) :
    (Data.stringify (some (place.fill value))).toList = place.writtenText (Json.write value) := by
  cases place with
  | field before name inner after =>
      rw [writtenText, ← write_fill]
      exact String.toList_ofList
  | _ => exact h.elim

/-- Any other value is written as the item of a list is. -/
theorem toList_stringify_of_not_inField {place : Place} (h : ¬place.InField) {value : Data}
    (hValue : ∀ fields, value ≠ .object fields) :
    (Data.stringify (some (place.fill value))).toList = place.writtenText value.itemText := by
  cases place with
  | here =>
      cases value with
      | object fields => exact absurd rfl (hValue fields)
      | _ => rfl
  | item before inner after => exact itemText_fill value (.item before inner after)
  | field before name inner after => exact absurd trivial h

/-! What stands around. -/

theorem exists_intercalate (before after : List (List Char)) :
    ∃ front back, ∀ text, [','].intercalate (before ++ text :: after) = front ++ text ++ back := by
  induction before with
  | nil =>
      cases after with
      | nil => exact ⟨[], [], fun text => by simp⟩
      | cons next rest =>
          refine ⟨[], ',' :: [','].intercalate (next :: rest), fun text => ?_⟩
          simp [List.intercalate_cons_cons]
  | cons first rest ih =>
      obtain ⟨front, back, hText⟩ := ih
      refine ⟨first ++ ',' :: front, back, fun text => ?_⟩
      rw [List.cons_append, List.intercalate_cons_of_ne_nil (by simp), hText]
      simp

/-- The text at the place stands between two others, whatever it is. -/
theorem exists_jsonText (place : Place) :
    ∃ front back, ∀ text, place.jsonText text = front ++ text ++ back := by
  induction place with
  | here => exact ⟨[], [], fun text => by simp [jsonText]⟩
  | item before inner after ih =>
      obtain ⟨front, back, hText⟩ := ih
      obtain ⟨start, rest, hItems⟩ :=
        exists_intercalate (before.map Json.write) (after.map Json.write)
      refine ⟨'[' :: (start ++ front), back ++ rest ++ [']'], fun text => ?_⟩
      simp [jsonText, hItems, hText]
  | field before name inner after ih =>
      obtain ⟨front, back, hText⟩ := ih
      obtain ⟨start, rest, hFields⟩ :=
        exists_intercalate (before.map Json.fieldText) (after.map Json.fieldText)
      refine ⟨'\x7b' :: (start ++ Json.quote name ++ ':' :: front), back ++ rest ++ ['\x7d'],
        fun text => ?_⟩
      simp [jsonText, hFields, hText]

theorem exists_listText {place : Place} (h : place.InLists) :
    ∃ front back, ∀ text, place.listText text = front ++ text ++ back := by
  induction place with
  | here => exact ⟨[], [], fun text => (List.append_nil text).symm⟩
  | item before inner after ih =>
      obtain ⟨front, back, hText⟩ := ih h
      obtain ⟨start, rest, hItems⟩ :=
        exists_intercalate (before.map Data.itemText) (after.map Data.itemText)
      refine ⟨start ++ front, back ++ rest, fun text => ?_⟩
      rw [listText, hItems, hText]
      simp
  | field before name inner after _ => exact h.elim

theorem exists_writtenText {place : Place} (h : place.Shown) :
    ∃ front back, ∀ text, place.writtenText text = front ++ text ++ back := by
  rcases h with hLists | hField
  · obtain ⟨front, back, hText⟩ := exists_listText hLists
    refine ⟨front, back, fun text => ?_⟩
    rw [← hText]
    cases place with
    | field before name inner after => exact hLists.elim
    | _ => rfl
  · obtain ⟨front, back, hText⟩ := place.exists_jsonText
    refine ⟨front, back, fun text => ?_⟩
    rw [← hText]
    cases place with
    | field before name inner after => rfl
    | _ => exact hField.elim

end Place

end HtmlTemplate
