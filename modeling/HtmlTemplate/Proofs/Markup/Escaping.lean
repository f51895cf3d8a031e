import HtmlTemplate.Data.Coercion
import HtmlTemplate.Proofs.Raw.Bags

/-! What escaping keeps out of the text of a reference. The characters that begin and end
tags are escaped in every string, however deep it lies, and nothing else that a value is
written with holds them, except for the names of fields: those are left as they are, and an
object is written with them. -/
namespace HtmlTemplate

/-- The characters that begin and end a tag. -/
def IsTagMark (c : Char) : Prop :=
  c = '<' ∨ c = '>'

instance (c : Char) : Decidable (IsTagMark c) :=
  inferInstanceAs (Decidable (c = '<' ∨ c = '>'))

theorem IsTagMark.not_mem {c : Char} (h : IsTagMark c) {text : List Char}
    (hText : '<' ∉ text ∧ '>' ∉ text) : c ∉ text := by
  rcases h with rfl | rfl
  · exact hText.1
  · exact hText.2

theorem IsTagMark.ne {c d : Char} (h : IsTagMark c) (hOther : ¬IsTagMark d) : c ≠ d := by
  rintro rfl
  exact hOther h

theorem IsTagMark.not_numeric {c : Char} (h : IsTagMark c) : isNumeric c = false := by
  rcases h with rfl | rfl <;> decide

theorem not_mem_escapeHtml {c : Char} (hMark : IsTagMark c) (text : List Char) :
    c ∉ escapeHtml text := by
  intro hMem
  obtain ⟨d, -, hFound⟩ := List.mem_flatMap.mp hMem
  unfold escapeChar at hFound
  split at hFound
  · exact hMark.not_mem (by decide) hFound
  · exact hMark.not_mem (by decide) hFound
  · exact hMark.not_mem (by decide) hFound
  · exact hMark.not_mem (by decide) hFound
  · exact hMark.not_mem (by decide) hFound
  · next hOpen hClose _ _ =>
    rw [List.mem_singleton.mp hFound] at hMark
    exact hMark.elim hOpen hClose

namespace Data

theorem escapeItems_eq_map (items : List Data) : escapeItems items = items.map escape := by
  induction items with
  | nil => rfl
  | cons item rest ih => exact congrArg _ ih

theorem escapeFields_eq_map (fields : List (String × Data)) :
    escapeFields fields = fields.map fun field => (field.1, field.2.escape) := by
  induction fields with
  | nil => rfl
  | cons field rest ih => exact congrArg _ ih

/-! The names of fields. -/

mutual

/-- The names of the fields within a value. -/
def names : Data → List String
  | .array items => namesOfItems items
  | .object fields => namesOfFields fields
  | _ => []

/-- The names of the fields within some values. -/
def namesOfItems : List Data → List String
  | [] => []
  | item :: rest => item.names ++ namesOfItems rest

/-- The names of some named values, and of the fields within these. -/
def namesOfFields : List (String × Data) → List String
  | [] => []
  | (name, value) :: rest => name :: (value.names ++ namesOfFields rest)

end

mutual

/-- Of the texts in an escaped value, the names of fields alone can hold a mark. -/
theorem mem_texts_escape {c : Char} (hMark : IsTagMark c) {text : String} (hText : c ∈ text.toList)
    (v : Data) : text ∈ v.escape.texts ↔ text ∈ v.names := by
  cases v with
  | string given =>
      unfold escape names ofChars texts
      refine iff_of_false (fun hMem => ?_) List.not_mem_nil
      cases List.mem_singleton.mp hMem
      rw [String.toList_ofList] at hText
      exact not_mem_escapeHtml hMark _ hText
  | array items => exact mem_textsOfItems_escape hMark hText items
  | object fields => exact mem_textsOfFields_escape hMark hText fields
  | null => exact Iff.rfl
  | bool b => exact Iff.rfl
  | number n => exact Iff.rfl

theorem mem_textsOfItems_escape {c : Char} (hMark : IsTagMark c) {text : String}
    (hText : c ∈ text.toList) (items : List Data) :
    text ∈ textsOfItems (escapeItems items) ↔ text ∈ namesOfItems items := by
  cases items with
  | nil => exact Iff.rfl
  | cons item rest =>
      unfold escapeItems textsOfItems namesOfItems
      rw [List.mem_append, List.mem_append, mem_texts_escape hMark hText,
        mem_textsOfItems_escape hMark hText]

theorem mem_textsOfFields_escape {c : Char} (hMark : IsTagMark c) {text : String}
    (hText : c ∈ text.toList) (fields : List (String × Data)) :
    text ∈ textsOfFields (escapeFields fields) ↔ text ∈ namesOfFields fields := by
  cases fields with
  | nil => exact Iff.rfl
  | cons field rest =>
      obtain ⟨name, v⟩ := field
      unfold escapeFields textsOfFields namesOfFields
      rw [List.mem_cons, List.mem_cons, List.mem_append, List.mem_append,
        mem_texts_escape hMark hText, mem_textsOfFields_escape hMark hText]

end

end Data

/-! Marks in the text of a value. -/

namespace Json

theorem mem_escapeChar {c : Char} (hMark : IsTagMark c) (d : Char) : c ∈ escapeChar d ↔ c = d := by
  have hControl : ∀ n < 32, '<' ∉ ['\\', 'u', '0', '0', hexDigit (n / 16), hexDigit (n % 16)] ∧
      '>' ∉ ['\\', 'u', '0', '0', hexDigit (n / 16), hexDigit (n % 16)] := by
    decide
  by_cases hSame : c = d
  · subst hSame
    refine iff_of_true ?_ rfl
    rcases hMark with rfl | rfl <;> decide
  · refine iff_of_false (fun hFound => ?_) hSame
    unfold escapeChar at hFound
    repeat' split at hFound
    all_goals first
      | exact hMark.not_mem (by decide) hFound
      | exact hMark.not_mem (hControl _ ‹_›) hFound
      | exact hSame (List.mem_singleton.mp hFound)

theorem mem_quote {c : Char} (hMark : IsTagMark c) (text : String) :
    c ∈ quote text ↔ c ∈ text.toList := by
  have hQuote : c ≠ '"' := hMark.ne (by decide)
  unfold quote
  simp [hQuote, mem_escapeChar hMark]

theorem not_mem_numberText {c : Char} (hMark : IsTagMark c) (n : Number) : c ∉ numberText n := by
  cases n with
  | int n => exact (numeric_intText n).not_mem hMark.not_numeric
  | double x => exact (numeric_jsonText x).not_mem hMark.not_numeric

mutual

/-- JSON has the marks that its texts have. -/
theorem mem_write {c : Char} (hMark : IsTagMark c) (v : Data) :
    c ∈ write v ↔ ∃ text ∈ v.texts, c ∈ text.toList := by
  cases v with
  | null =>
      have hWord : c ∉ "null".toList := hMark.not_mem (by decide)
      simpa [write, Data.texts] using hWord
  | bool b =>
      have hWord : c ∉ (if b then "true" else "false").toList :=
        hMark.not_mem (by cases b <;> decide)
      simpa [write, Data.texts] using hWord
  | number n => simpa [write, Data.texts] using not_mem_numberText hMark n
  | string text => simpa [write, Data.texts] using mem_quote hMark text
  | array items =>
      have hOpening : c ≠ '[' := hMark.ne (by decide)
      have hClosing : c ≠ ']' := hMark.ne (by decide)
      unfold write Data.texts
      simp [hOpening, hClosing, mem_writeItems hMark items]
  | object fields =>
      have hOpening : c ≠ '\x7b' := hMark.ne (by decide)
      have hClosing : c ≠ '\x7d' := hMark.ne (by decide)
      unfold write Data.texts
      simp [hOpening, hClosing, mem_writeFields hMark fields]

theorem mem_writeItems {c : Char} (hMark : IsTagMark c) (items : List Data) :
    c ∈ writeItems items ↔ ∃ text ∈ Data.textsOfItems items, c ∈ text.toList := by
  have hComma : c ≠ ',' := hMark.ne (by decide)
  match items with
  | [] => simp [writeItems, Data.textsOfItems]
  | [item] => simp [writeItems, Data.textsOfItems, mem_write hMark item]
  | item :: next :: rest =>
      unfold writeItems Data.textsOfItems
      simp [hComma, mem_write hMark item, mem_writeItems hMark (next :: rest), or_and_right,
        exists_or]

theorem mem_writeFields {c : Char} (hMark : IsTagMark c) (fields : List (String × Data)) :
    c ∈ writeFields fields ↔ ∃ text ∈ Data.textsOfFields fields, c ∈ text.toList := by
  have hComma : c ≠ ',' := hMark.ne (by decide)
  have hColon : c ≠ ':' := hMark.ne (by decide)
  match fields with
  | [] => simp [writeFields, Data.textsOfFields]
  | [(name, v)] =>
      simp [writeFields, Data.textsOfFields, hColon, mem_write hMark v, mem_quote hMark]
  | (name, v) :: next :: rest =>
      unfold writeFields Data.textsOfFields
      simp [hComma, hColon, mem_quote hMark, mem_write hMark v,
        mem_writeFields hMark (next :: rest), or_and_right, exists_or]

end

end Json

namespace Data

/-- An escaped object is written with the marks of the names in it. -/
theorem mem_write_escape {c : Char} (hMark : IsTagMark c) (v : Data) :
    c ∈ Json.write v.escape ↔ ∃ name ∈ v.names, c ∈ name.toList := by
  rw [Json.mem_write hMark]
  constructor
  · rintro ⟨text, hMem, hText⟩
    exact ⟨text, (mem_texts_escape hMark hText v).mp hMem, hText⟩
  · rintro ⟨name, hMem, hName⟩
    exact ⟨name, (mem_texts_escape hMark hName v).mpr hMem, hName⟩

mutual

/-- Whatever else is displayed has no marks once it is escaped; an object in an array is
displayed as a fixed text. -/
theorem not_mem_display_escape {c : Char} (hMark : IsTagMark c) (v : Data) :
    c ∉ v.escape.display.toList := by
  cases v with
  | null => exact hMark.not_mem (by decide)
  | bool b => exact hMark.not_mem (by cases b <;> decide)
  | number n => exact (numeric_doubleText _).not_mem hMark.not_numeric
  | string text =>
      unfold escape ofChars display
      rw [String.toList_ofList]
      exact not_mem_escapeHtml hMark _
  | array items =>
      unfold escape display
      rw [String.toList_intercalate]
      intro hMem
      rcases Text.mem_intercalate hMem with hComma | ⟨t, ht, hFound⟩
      · exact hMark.not_mem (by decide) hComma
      · obtain ⟨text, hText, rfl⟩ := List.mem_map.mp ht
        exact not_mem_displayItems_escape hMark items text hText hFound
  | object fields =>
      unfold escape display
      exact hMark.not_mem (by decide)

theorem not_mem_displayItems_escape {c : Char} (hMark : IsTagMark c) (items : List Data) :
    ∀ text ∈ displayItems (escapeItems items), c ∉ text.toList := by
  cases items with
  | nil => nofun
  | cons item rest =>
      have hRest := not_mem_displayItems_escape hMark rest
      have hFirst := not_mem_display_escape hMark item
      unfold escapeItems
      cases hEscaped : item.escape with
      | null => exact List.forall_mem_cons.mpr ⟨List.not_mem_nil, hRest⟩
      | _ =>
          rw [hEscaped] at hFirst
          exact List.forall_mem_cons.mpr ⟨hFirst, hRest⟩

end

/-- The marks in the text of escaped data. -/
theorem mem_stringify_escape {c : Char} (hMark : IsTagMark c) (found : Option Data) :
    c ∈ (stringify (found.map escape)).toList ↔
      ∃ fields, found = some (.object fields) ∧
        ∃ name ∈ namesOfFields fields, c ∈ name.toList := by
  cases found with
  | none => simp [stringify]
  | some v =>
      cases v with
      | object fields =>
          have hWritten := mem_write_escape hMark (.object fields)
          unfold escape names at hWritten
          simpa [stringify, escape] using hWritten
      | null => simp [stringify, escape]
      | bool b => simpa [stringify, escape] using not_mem_display_escape hMark (.bool b)
      | number n => simpa [stringify, escape] using not_mem_display_escape hMark (.number n)
      | string text =>
          simpa [stringify, escape, ofChars] using not_mem_display_escape hMark (.string text)
      | array items => simpa [stringify, escape] using not_mem_display_escape hMark (.array items)

/-! Paths into escaped data. -/

theorem get?_escapeFields (fields : Bag) (name : String) :
    Bag.get? (escapeFields fields) name = (fields.get? name).map escape := by
  induction fields with
  | nil => rfl
  | cons field rest ih =>
      obtain ⟨key, v⟩ := field
      unfold escapeFields Bag.get?
      split
      · rfl
      · exact ih

theorem child?_escape (v : Data) (key : String) :
    v.escape.child? key = (v.child? key).map escape := by
  cases v with
  | object fields => exact get?_escapeFields fields key
  | array items =>
      unfold escape child?
      dsimp only
      rw [escapeItems_eq_map]
      cases readNatural? key.toList with
      | none => rfl
      | some i => exact List.getElem?_map
  | _ => rfl

theorem lastChild?_escape (v : Data) (key : String) :
    v.escape.lastChild? key = (v.lastChild? key).map escape := by
  cases v with
  | array items =>
      have hChild := child?_escape (.array items) key
      unfold escape at hChild ⊢
      unfold lastChild?
      dsimp only
      split
      · rw [escapeItems_eq_map, List.length_map]
        rfl
      · exact hChild
  | object fields => exact get?_escapeFields fields key
  | _ => rfl

theorem follow?_escape (v : Data) (keys : List String) :
    v.escape.follow? keys = (v.follow? keys).map escape := by
  fun_induction follow? v keys with
  | case1 v => rfl
  | case2 v key => exact lastChild?_escape v key
  | case3 v key next rest ih =>
      rw [follow?, child?_escape]
      cases hPart : v.child? key with
      | none => rfl
      | some part => exact ih part

end Data

namespace Bag

/-- In escaped parameters every path leads to what it leads to in the given ones, escaped. -/
theorem lookup?_sanitize (bag : Bag) {path : String}
    (hPath : (pathSegments path).head? ≠ some rawKey) :
    bag.sanitize.lookup? path = (bag.lookup? path).map Data.escape := by
  unfold lookup?
  cases hKeys : pathSegments path with
  | nil => rfl
  | cons name rest =>
      rw [hKeys, List.head?_cons] at hPath
      have hName : rawKey ≠ name := fun hSame => hPath (congrArg some hSame.symm)
      dsimp only
      unfold sanitize
      rw [get?_insert, if_neg hName, Data.get?_escapeFields]
      cases bag.get? name with
      | none => rfl
      | some v => exact v.follow?_escape rest

/-- A reference writes a mark exactly if its path leads to an object and the mark is in the
name of a field within it. -/
theorem mem_stringify_sanitize_iff (bag : Bag) {path : String} {c : Char}
    (hPath : (pathSegments path).head? ≠ some rawKey) (hMark : c = '<' ∨ c = '>') :
    c ∈ (Data.stringify (bag.sanitize.lookup? path)).toList ↔
      ∃ fields, bag.lookup? path = some (.object fields) ∧
        ∃ name ∈ Data.namesOfFields fields, c ∈ name.toList := by
  rw [lookup?_sanitize bag hPath]
  exact Data.mem_stringify_escape hMark _

/-- Parameters in which the name of a field is a tag. -/
def tagNamed : Bag :=
  [("o", .object [("<b>", .ofInt 1)])]

theorem tagNamed_mem_iff : (pathSegments "o").head? ≠ some rawKey ∧
    ('<' ∈ (Data.stringify (tagNamed.sanitize.lookup? "o")).toList ↔
      ∃ fields, tagNamed.lookup? "o" = some (.object fields) ∧
        ∃ name ∈ Data.namesOfFields fields, '<' ∈ name.toList) :=
  ⟨by decide, mem_stringify_sanitize_iff tagNamed (by decide) (.inl rfl)⟩

/-- The name is written as it is, so that not every reference is free of tags. -/
theorem tagNamed_written : ¬∀ (bag : Bag) (path : String), bag.Sorted →
    (pathSegments path).head? ≠ some rawKey →
      '<' ∉ (Data.stringify (bag.sanitize.lookup? path)).toList ∧
      '>' ∉ (Data.stringify (bag.sanitize.lookup? path)).toList := by
  intro hAll
  have hFree := (hAll tagNamed "o" (List.pairwise_singleton _ _) (by decide)).1
  have hWritten : Data.stringify (tagNamed.sanitize.lookup? "o") = "\x7b\"<b>\":1\x7d" := by
    decide +kernel
  rw [hWritten] at hFree
  exact hFree (by decide)

end Bag

end HtmlTemplate
