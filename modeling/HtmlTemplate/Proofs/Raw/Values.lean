import HtmlTemplate.Data.Path
import HtmlTemplate.Markup.Escape
import HtmlTemplate.Proofs.Data.Numerals
import HtmlTemplate.Proofs.Raw.Plain

/-! Values that cannot name the raw data: no text within them can. Their parts cannot
either, nor can the texts they are written as. -/
namespace HtmlTemplate

open Text (Plain)

/-! Numerals. -/

theorem plain_of_numeric {text : List Char} (h : Numeric text) : Plain text :=
  h.not_mem (by decide)

theorem plain_doubleText (x : Float) : Plain (Double.text x).toList :=
  plain_of_numeric (numeric_doubleText x)

/-! Values. -/

namespace Data

mutual

/-- The texts within a value: strings and the names of fields. -/
def texts : Data → List String
  | .string text => [text]
  | .array items => textsOfItems items
  | .object fields => textsOfFields fields
  | _ => []

/-- The texts within some values. -/
def textsOfItems : List Data → List String
  | [] => []
  | item :: rest => item.texts ++ textsOfItems rest

/-- The texts within some named values, their names among them. -/
def textsOfFields : List (String × Data) → List String
  | [] => []
  | (name, value) :: rest => name :: (value.texts ++ textsOfFields rest)

end

theorem forall_textsOfItems (A : String → Prop) {items : List Data} :
    (∀ text ∈ textsOfItems items, A text) ↔ ∀ v ∈ items, ∀ text ∈ v.texts, A text := by
  induction items with
  | nil => simp [textsOfItems]
  | cons item rest ih =>
      rw [textsOfItems, List.forall_mem_append, List.forall_mem_cons, ih]

theorem forall_textsOfFields (A : String → Prop) {fields : List (String × Data)} :
    (∀ text ∈ textsOfFields fields, A text) ↔
      ∀ field ∈ fields, A field.1 ∧ ∀ text ∈ field.2.texts, A text := by
  induction fields with
  | nil => simp [textsOfFields]
  | cons field rest ih =>
      rw [textsOfFields, List.forall_mem_cons, List.forall_mem_append, List.forall_mem_cons, ih,
        and_assoc]

/-- All texts within a value are plain. -/
def Plain (value : Data) : Prop :=
  ∀ text ∈ value.texts, Text.Plain text.toList

@[simp] theorem plain_null : Plain .null := nofun

@[simp] theorem plain_bool (b : Bool) : Plain (.bool b) := nofun

@[simp] theorem plain_number (n : Number) : Plain (.number n) := nofun

@[simp] theorem plain_ofInt (n : Int) : Plain (ofInt n) := nofun

@[simp] theorem plain_string {text : String} : Plain (.string text) ↔ Text.Plain text.toList := by
  unfold Plain texts
  simp

@[simp] theorem plain_ofChars {text : List Char} : Plain (ofChars text) ↔ Text.Plain text := by
  unfold ofChars
  rw [plain_string, String.toList_ofList]

@[simp] theorem plain_array {items : List Data} : Plain (.array items) ↔ ∀ v ∈ items, v.Plain :=
  forall_textsOfItems _

@[simp] theorem plain_object {fields : List (String × Data)} :
    Plain (.object fields) ↔ ∀ field ∈ fields, Text.Plain field.1.toList ∧ field.2.Plain :=
  forall_textsOfFields _

theorem plain_getD {found : Option Data} (h : ∀ v, found = some v → v.Plain) :
    (found.getD .null).Plain := by
  cases found with
  | none => exact plain_null
  | some v => exact h v rfl

theorem plain_ofFloat (x : Float) : (ofFloat x).Plain := by
  unfold ofFloat
  split
  · split
    · split <;> simp
    · simp
  · rw [plain_string]
    exact plain_doubleText x

theorem plain_typeOf (v : Data) : Text.Plain v.typeOf.toList := by
  cases v with
  | string text =>
      simp only [typeOf]
      split <;> decide
  | _ =>
      simp only [typeOf]
      decide

mutual

theorem plain_display {v : Data} (h : v.Plain) : Text.Plain v.display.toList := by
  cases v with
  | null => decide
  | bool b => cases b <;> decide
  | number n => exact plain_doubleText _
  | string text => exact plain_string.mp h
  | array items =>
      unfold display
      rw [String.toList_intercalate]
      apply Text.Plain.intercalate
      · decide
      · intro t ht
        obtain ⟨text, hText, rfl⟩ := List.mem_map.mp ht
        exact plain_displayItems (plain_array.mp h) text hText
  | object fields =>
      unfold display
      decide

theorem plain_displayItems {items : List Data} (h : ∀ v ∈ items, v.Plain) :
    ∀ text ∈ displayItems items, Text.Plain text.toList := by
  cases items with
  | nil => nofun
  | cons item rest =>
      have hFirst := h item List.mem_cons_self
      have hRest := plain_displayItems fun v hv => h v (List.mem_cons_of_mem item hv)
      cases item with
      | null =>
          unfold displayItems
          exact List.forall_mem_cons.mpr ⟨by decide, hRest⟩
      | _ =>
          unfold displayItems
          exact List.forall_mem_cons.mpr ⟨plain_display hFirst, hRest⟩

end

end Data

/-! Values as JSON. -/

namespace Json

theorem plain_escapeChar {c : Char} (h : c ≠ '_') : Plain (escapeChar c) := by
  have hControl : ∀ n < 32, Plain ['\\', 'u', '0', '0', hexDigit (n / 16), hexDigit (n % 16)] := by
    decide
  unfold escapeChar
  repeat' split
  all_goals first
    | decide
    | exact hControl _ ‹_›
    | simpa using h

theorem plain_quote {text : String} (h : Plain text.toList) : Plain (quote text) := by
  have hInside := h.flatMap fun _ => plain_escapeChar
  unfold quote
  simp [hInside]

theorem plain_numberText (n : Number) : Plain (numberText n) := by
  cases n with
  | int n => exact plain_of_numeric (numeric_intText n)
  | double x => exact plain_of_numeric (numeric_jsonText x)

mutual

theorem plain_write {v : Data} (h : v.Plain) : Plain (write v) := by
  cases v with
  | null =>
      unfold write
      decide
  | bool b =>
      unfold write
      cases b <;> decide
  | number n => exact plain_numberText n
  | string text => exact plain_quote (Data.plain_string.mp h)
  | array items =>
      have hItems := plain_writeItems (Data.plain_array.mp h)
      unfold write
      simp [hItems]
  | object fields =>
      have hFields := plain_writeFields (Data.plain_object.mp h)
      unfold write
      simp [hFields]

theorem plain_writeItems {items : List Data} (h : ∀ v ∈ items, v.Plain) :
    Plain (writeItems items) := by
  match items with
  | [] => exact Text.plain_nil
  | [item] => exact plain_write (h item List.mem_cons_self)
  | item :: next :: rest =>
      have hFirst := plain_write (h item List.mem_cons_self)
      have hRest := plain_writeItems fun v hv => h v (List.mem_cons_of_mem item hv)
      unfold writeItems
      simp [hFirst, hRest]

theorem plain_writeFields {fields : List (String × Data)}
    (h : ∀ field ∈ fields, Plain field.1.toList ∧ field.2.Plain) : Plain (writeFields fields) := by
  match fields with
  | [] => exact Text.plain_nil
  | [(name, v)] =>
      obtain ⟨hName, hValue⟩ := h (name, v) List.mem_cons_self
      have hFirst := plain_write hValue
      unfold writeFields
      simp [plain_quote hName, hFirst]
  | (name, v) :: next :: rest =>
      obtain ⟨hName, hValue⟩ := h (name, v) List.mem_cons_self
      have hFirst := plain_write hValue
      have hRest := plain_writeFields fun field hField => h field (List.mem_cons_of_mem _ hField)
      unfold writeFields
      simp [plain_quote hName, hFirst, hRest]

end

end Json

namespace Data

theorem plain_stringify {found : Option Data} (h : ∀ v, found = some v → v.Plain) :
    Text.Plain (stringify found).toList := by
  unfold stringify
  split
  · decide
  · decide
  · next fields =>
    rw [String.toList_ofList]
    exact Json.plain_write (h _ rfl)
  · next v _ _ => exact plain_display (h v rfl)

end Data

/-! Parts of values. -/

theorem Bag.mem_of_get? {bag : Bag} {name : String} {v : Data} (h : bag.get? name = some v) :
    (name, v) ∈ bag := by
  induction bag with
  | nil => cases h
  | cons entry rest ih =>
      obtain ⟨key, old⟩ := entry
      unfold Bag.get? at h
      split at h
      · next hKey =>
        cases h
        exact hKey ▸ List.mem_cons_self
      · exact List.mem_cons_of_mem _ (ih h)

namespace Data

theorem plain_child {v part : Data} {key : String} (h : v.Plain)
    (hPart : v.child? key = some part) : part.Plain := by
  unfold child? at hPart
  split at hPart
  · exact (plain_object.mp h _ (Bag.mem_of_get? hPart)).2
  · obtain ⟨i, -, hItem⟩ := Option.bind_eq_some_iff.mp hPart
    exact plain_array.mp h _ (List.mem_of_getElem? hItem)
  · cases hPart

theorem plain_lastChild {v part : Data} {key : String} (h : v.Plain)
    (hPart : v.lastChild? key = some part) : part.Plain := by
  unfold lastChild? at hPart
  split at hPart
  · split at hPart
    · cases hPart
      exact plain_ofInt _
    · exact plain_child h hPart
  · exact plain_child h hPart

theorem plain_follow {v part : Data} {keys : List String} (h : v.Plain)
    (hPart : v.follow? keys = some part) : part.Plain := by
  fun_induction follow? v keys with
  | case1 v =>
      cases hPart
      exact h
  | case2 v key => exact plain_lastChild h hPart
  | case3 v key next rest ih =>
      obtain ⟨inner, hInner, hRest⟩ := Option.bind_eq_some_iff.mp hPart
      exact ih inner (plain_child h hInner) hRest

end Data

/-- The keys of a plain path are plain. -/
theorem plain_pathKeys {skip : Nat} {state : PathState} {current text : List Char}
    (hCurrent : Plain current) (hText : Plain text) :
    ∀ key ∈ pathKeys skip state current text, Plain key.toList := by
  fun_induction pathKeys skip state current text with
  | case6 current rest _ before _ ih =>
      -- a bracket behind a plain key
      intro key hKey
      rcases List.mem_append.mp hKey with hKey | hKey
      · simp only [before] at hKey
        split at hKey
        · cases hKey
        · cases List.mem_singleton.mp hKey
          simpa using hCurrent
      · exact ih Text.plain_nil (Text.plain_cons.mp hText).2 key hKey
  | _ => simp_all

theorem plain_pathSegments {path : String} (h : Plain path.toList) :
    ∀ key ∈ pathSegments path, Plain key.toList := by
  unfold pathSegments
  split
  · decide
  · exact plain_pathKeys Text.plain_nil h.trim

end HtmlTemplate
