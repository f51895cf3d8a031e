import HtmlTemplate.Proofs.Markup.Escaping
import HtmlTemplate.Proofs.Raw.Forgery

/-! Which data can reach the raw data. Texts without the character that names it cannot,
whatever the templates do with them. Every other text can: an inserted text is marked where
it holds `@(` itself, but not where it makes one together with the text beside it. -/
namespace HtmlTemplate

open Text (Plain)

theorem plain_escapeHtml {text : List Char} (h : Plain text) : Plain (escapeHtml text) := by
  refine h.flatMap fun c hc => ?_
  unfold escapeChar
  split
  · decide
  · decide
  · decide
  · decide
  · decide
  · exact Text.plain_cons.mpr ⟨hc, Text.plain_nil⟩

namespace Data

mutual

theorem plain_escape {v : Data} (h : v.Plain) : v.escape.Plain := by
  cases v with
  | string text => exact plain_ofChars.mpr (plain_escapeHtml (plain_string.mp h))
  | array items => exact plain_array.mpr (plain_escapeItems (plain_array.mp h))
  | object fields => exact plain_object.mpr (plain_escapeFields (plain_object.mp h))
  | null => exact h
  | bool b => exact h
  | number n => exact h

theorem plain_escapeItems {items : List Data} (h : ∀ v ∈ items, v.Plain) :
    ∀ v ∈ escapeItems items, v.Plain := by
  cases items with
  | nil => exact h
  | cons item rest =>
      obtain ⟨hFirst, hRest⟩ := List.forall_mem_cons.mp h
      exact List.forall_mem_cons.mpr ⟨plain_escape hFirst, plain_escapeItems hRest⟩

theorem plain_escapeFields {fields : List (String × Data)}
    (h : ∀ field ∈ fields, Text.Plain field.1.toList ∧ field.2.Plain) :
    ∀ field ∈ escapeFields fields, Text.Plain field.1.toList ∧ field.2.Plain := by
  cases fields with
  | nil => exact h
  | cons field rest =>
      obtain ⟨⟨hName, hValue⟩, hRest⟩ := List.forall_mem_cons.mp h
      exact List.forall_mem_cons.mpr ⟨⟨hName, plain_escape hValue⟩, plain_escapeFields hRest⟩

end

end Data

namespace Bag

theorem get?_erase_self (bag : Bag) (name : String) : (bag.erase name).get? name = none :=
  get?_eq_none fun _ hEntry => of_decide_eq_true (List.mem_filter.mp hEntry).2

variable {bag : Bag}

theorem Sorted.escapeFields (h : bag.Sorted) : Sorted (Data.escapeFields bag) := by
  rw [Data.escapeFields_eq_map]
  exact List.pairwise_map.mpr h

/-- Escaped data whose plain names have plain values is the same with the raw data and
without it. -/
theorem sanitize_twins (h : bag.Sorted)
    (hPlain : ∀ entry ∈ bag, Plain entry.1.toList → entry.2.Plain) :
    bag.sanitize.Twins (bag.sanitize.erase rawKey) where
  sorted_left := h.escapeFields.insert rawKey _
  sorted_right := (h.escapeFields.insert rawKey _).erase rawKey
  same name hName := (get?_erase _ (ne_rawKey_of_plain hName)).symm
  plain name v hName hFound := by
    unfold sanitize at hFound
    rw [get?_insert, if_neg (ne_rawKey_of_plain hName).symm] at hFound
    have hMem := mem_of_get? hFound
    rw [Data.escapeFields_eq_map] at hMem
    obtain ⟨entry, hEntry, hSame⟩ := List.mem_map.mp hMem
    cases hSame
    exact Data.plain_escape (hPlain entry hEntry hName)

/-- A template that cannot name the raw data renders escaped data as if the raw data were
not there, whatever it imports and however deep work may be nested. -/
def RawUnreachable (bag : Bag) : Prop :=
  ∀ (options : Options) (resolve : Resolver) (source path : String),
    Plain source.toList → PlainResolver resolve →
      ({ options with escapeParameters := false } : Options).render resolve source
        bag.sanitize path =
      ({ options with escapeParameters := false } : Options).render resolve source
        (bag.sanitize.erase rawKey) path

theorem rawUnreachable_of_plain (h : bag.Sorted)
    (hPlain : ∀ entry ∈ bag, Plain entry.1.toList → entry.2.Plain) : bag.RawUnreachable := by
  intro options resolve source path hSource hResolve
  have hVisible (b : Bag) :
      ({ options with escapeParameters := false } : Options).visibleBag b = b := rfl
  apply render_twin hResolve hSource
  rw [hVisible, hVisible]
  exact sanitize_twins h hPlain

end Bag

/-- A single text with an underscore in it is enough for a template to reach the raw
data. -/
theorem exists_reaching_bag {text : String} (h : '_' ∈ text.toList) :
    ∃ i : Nat, ¬Bag.RawUnreachable [("n", .ofInt i), ("x", .string text)] := by
  have hEscaped : '_' ∈ escapeHtml text.toList :=
    List.mem_flatMap.mpr ⟨'_', h, List.mem_singleton_self _⟩
  obtain ⟨i, hIndex⟩ := List.mem_iff_getElem?.mp hEscaped
  rw [← String.toList_ofList (l := escapeHtml text.toList)] at hIndex
  refine ⟨i, fun hUnreachable => ?_⟩
  have hSame := hUnreachable {} noComponents forgePage "page" (by decide) nofun
  have hRaw := render_forgePage (Bag.sanitize [("n", .ofInt i), ("x", .string text)])
    rfl rfl hIndex
  have hErased := render_forgePage
    ((Bag.sanitize [("n", .ofInt i), ("x", .string text)]).erase rawKey) rfl rfl hIndex
  have hGiven : (Bag.sanitize [("n", .ofInt i), ("x", .string text)]).get? rawKey =
    some (.object [("n", .ofInt i), ("x", .string text)]) := rfl
  have hNothing : unshield (shield (Data.stringify none).toList) = [] := rfl
  rw [substitute_rawReference, hGiven] at hRaw
  rw [substitute_rawReference, Bag.get?_erase_self, hNothing] at hErased
  rw [hRaw, hErased] at hSame
  have hEmpty := String.ofList_injective (Except.ok.inj hSame)
  unfold unshield at hEmpty
  exact shield_ne_nil (stringify_object_ne_nil _) (List.map_eq_nil_iff.mp hEmpty)

/-- Data whose texts are taken from some stock never reaches the raw data exactly if no text
of the stock has an underscore. What cannot be named itself may hold any texts. -/
theorem rawUnreachable_iff_texts_plain (A : String → Prop) :
    (∀ bag : Bag, bag.Sorted →
      (∀ entry ∈ bag, Plain entry.1.toList → ∀ text ∈ entry.2.texts, A text) →
      bag.RawUnreachable) ↔
    ∀ text, A text → Plain text.toList := by
  constructor
  · intro h text hText hUnderscore
    obtain ⟨i, hReaches⟩ := exists_reaching_bag hUnderscore
    refine hReaches (h _ ?_ ?_)
    · exact List.pairwise_pair.mpr (show "n" < "x" by decide)
    · refine List.forall_mem_cons.mpr ⟨fun _ => List.forall_mem_nil _, ?_⟩
      refine List.forall_mem_singleton.mpr fun _ => ?_
      exact List.forall_mem_singleton.mpr hText
  · intro h bag hSorted hTexts
    apply Bag.rawUnreachable_of_plain hSorted
    intro entry hEntry hName text hMem
    exact h text (hTexts entry hEntry hName text hMem)

/-- Two items of a loop make a reference together that neither of them holds. -/
theorem adjacent_items_reach_raw_data : ¬Bag.RawUnreachable
    [("secret", .string "<b>"), ("xs", .array [.string "@", .string "(_.secret)"])] := by
  intro hUnreachable
  have hSame := hUnreachable {} noComponents "serve (@each (xs:x) \x7b@(x)\x7d)" "page"
    (by decide) nofun
  have hRaw : (({ escapeParameters := false } : Options).render noComponents
      "serve (@each (xs:x) \x7b@(x)\x7d)" (Bag.sanitize [("secret", .string "<b>"),
        ("xs", .array [.string "@", .string "(_.secret)"])]) "page").toOption = some "<b>" := by
    decide +kernel
  have hErased : (({ escapeParameters := false } : Options).render noComponents
      "serve (@each (xs:x) \x7b@(x)\x7d)" ((Bag.sanitize [("secret", .string "<b>"),
        ("xs", .array [.string "@", .string "(_.secret)"])]).erase rawKey) "page").toOption =
      some "" := by
    decide +kernel
  rw [hSame, hErased] at hRaw
  exact absurd hRaw (by decide)

end HtmlTemplate
