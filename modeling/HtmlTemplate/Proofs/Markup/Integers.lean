import HtmlTemplate.Proofs.Data.Numerals
import HtmlTemplate.Proofs.Data.Places
import HtmlTemplate.Proofs.Markup.Marks
import HtmlTemplate.Proofs.Markup.References
import HtmlTemplate.Proofs.Number.Conversion
import Mathlib

/-! Integers in a page. A number by itself or in a list is displayed as a double, a number in an
object is written as JSON, with the digits it has. The two agree exactly on the integers that a
double holds. -/
namespace HtmlTemplate

/-- A reference that stands for a value: the value of its path, or of the first of two paths, or
of the second one if that of the first does not count as true. -/
inductive Refers (bag : Bag) (inner : List Char) (value : Data) : Prop where
  | plain (hSplit : Text.splitFirst? "||".toList (Text.trim inner) = none)
      (hValue : bag.lookup? (String.ofList (Text.trim inner)) = some value)
  | preferred (left right : List Char)
      (hSplit : Text.splitFirst? "||".toList (Text.trim inner) = some (left, right))
      (hValue : bag.lookup? (String.ofList (Text.trim left)) = some value)
      (hTruthy : value.truthy = true)
  | alternative (left right : List Char)
      (hSplit : Text.splitFirst? "||".toList (Text.trim inner) = some (left, right))
      (hLeft : (bag.lookup? (String.ofList (Text.trim left))).filter Data.truthy = none)
      (hPath : Text.unquote? (Text.trim right) = none)
      (hValue : bag.lookup? (String.ofList (Text.trim right)) = some value)

theorem Refers.resolveReference {bag : Bag} {inner : List Char} {value : Data}
    (h : Refers bag inner value) :
    resolveReference bag inner = Data.stringify (some value) := by
  unfold HtmlTemplate.resolveReference
  dsimp only
  cases h with
  | plain hSplit hValue => rw [hSplit, hValue]
  | preferred left right hSplit hValue hTruthy =>
      rw [hSplit]
      dsimp only
      rw [hValue, Option.filter_some, if_pos hTruthy]
  | alternative left right hSplit hLeft hPath hValue =>
      rw [hSplit]
      dsimp only
      rw [hLeft, hPath, hValue]

/-! The digits of an integer. -/

theorem intText_ne_nil (n : Int) : (toString n).toList ≠ [] := by
  rw [Int.toString_eq_repr, Int.repr_eq_if]
  split
  · rw [Nat.toList_repr]
    exact Nat.toDigits_ne_nil
  · rw [String.toList_append]
    exact List.append_ne_nil_of_left_ne_nil (by decide) _

theorem intText_inj {n m : Int} : (toString n).toList = (toString m).toList ↔ n = m := by
  rw [String.toList_inj, Int.toString_eq_repr, Int.toString_eq_repr, Int.repr_inj]

/-- Marks are not set at the edges of a number. -/
theorem shield_around_number {digits : List Char} (hDigits : Numeric digits) (hSome : digits ≠ [])
    (front back : List Char) :
    shield (front ++ digits ++ back) = shield front ++ digits ++ shield back := by
  have hHead : (digits ++ back).head? ≠ some '(' := by
    rw [List.head?_append_of_ne_nil _ hSome]
    intro hParen
    exact hDigits.not_mem (by decide) (List.mem_of_mem_head? hParen)
  rw [List.append_assoc, shield_append hHead, shield_append_of_not_mem (hDigits.not_mem (by decide)),
    List.append_assoc]

/-- What is written for an integer at a place. -/
theorem toList_stringify_integer (place : Place) {n : Int} (hRange : n.natAbs < natBound) :
    (place.InField ∧ (Data.stringify (some (place.fill (.ofInt n)))).toList =
        place.writtenText (toString n).toList) ∨
      (¬place.InField ∧ (Data.stringify (some (place.fill (.ofInt n)))).toList =
        place.writtenText (toString (Double.nearestInt n)).toList) := by
  by_cases hField : place.InField
  · exact .inl ⟨hField, Place.toList_stringify_of_inField hField _⟩
  · refine .inr ⟨hField, ?_⟩
    rw [Place.toList_stringify_of_not_inField hField (by nofun)]
    have hText : Data.itemText (.ofInt n) = (Double.text (Float.ofInt n)).toList := rfl
    rw [hText, Double.text_ofInt hRange]

/-- A reference to an integer writes its digits exactly if the integer stands in an object, or if
a double holds it. -/
theorem integer_written_iff {bag : Bag} {inner : List Char} {place : Place} {n : Int}
    (hLow : -intBound ≤ n) (hHigh : n < natBound) (hShown : place.Shown)
    (hRefers : Refers bag inner (place.fill (.ofInt n))) (hParen : ')' ∉ inner)
    (hLine : '\n' ∉ inner) (after : List Char) :
    substitute bag ('@' :: '(' :: (inner ++ ')' :: after)) =
        shield (place.writtenText (toString n).toList) ++ substitute bag after ↔
      place.InField ∨ Double.Holds n := by
  have hRange : n.natAbs < natBound := by
    unfold intBound at hLow
    unfold natBound at hHigh ⊢
    omega
  have hInner : referenceInner? (inner ++ ')' :: after) = some (inner, after) :=
    referenceInner?_eq_some_iff.mpr ⟨rfl, hParen, hLine⟩
  rw [substitute_reference bag hInner, hRefers.resolveReference, List.append_left_inj]
  rcases toList_stringify_integer place hRange with ⟨hField, hText⟩ | ⟨hField, hText⟩
  · rw [hText]
    exact ⟨fun _ => .inl hField, fun _ => rfl⟩
  · obtain ⟨front, back, hPlace⟩ := Place.exists_writtenText hShown
    rw [hText, hPlace, hPlace, shield_around_number (numeric_intText _) (intText_ne_nil _),
      shield_around_number (numeric_intText _) (intText_ne_nil _), List.append_left_inj,
      List.append_right_inj, intText_inj, Double.nearestInt_eq_self_iff]
    exact (or_iff_right hField).symm

/-- Parameters with a list of identifiers. -/
def snowflakes : Bag :=
  [("ids", .array [.null, .ofInt 175928847299117056])]

theorem snowflake_written : -intBound ≤ 175928847299117056 ∧ (175928847299117056 : Int) < natBound ∧
    (Place.item [.null] .here []).Shown ∧
    Refers snowflakes "ids".toList ((Place.item [.null] .here []).fill (.ofInt 175928847299117056)) ∧
    ')' ∉ "ids".toList ∧ '\n' ∉ "ids".toList ∧
    (substitute snowflakes ('@' :: '(' :: ("ids".toList ++ ')' :: [])) =
        shield ((Place.item [.null] .here []).writtenText
          (toString (175928847299117056 : Int)).toList) ++ substitute snowflakes [] ↔
      (Place.item [.null] .here []).InField ∨ Double.Holds 175928847299117056) := by
  have hShown : (Place.item [.null] .here []).Shown := .inl trivial
  have hSplit : Text.splitFirst? "||".toList (Text.trim "ids".toList) = none := by decide +kernel
  have hRefers : Refers snowflakes "ids".toList
      ((Place.item [.null] .here []).fill (.ofInt 175928847299117056)) :=
    .plain hSplit (by rfl)
  exact ⟨by decide, by decide, hShown, hRefers, by decide, by decide,
    integer_written_iff (by decide) (by decide) hShown hRefers (by decide) (by decide) []⟩

/-- The least natural number that no double holds is written as the one before it. -/
theorem leastUnheld_not_written : ¬∀ (bag : Bag) (inner after : List Char) (place : Place) (n : Int),
    -intBound ≤ n → n < natBound → place.Shown → Refers bag inner (place.fill (.ofInt n)) →
      ')' ∉ inner → '\n' ∉ inner →
        substitute bag ('@' :: '(' :: (inner ++ ')' :: after)) =
          shield (place.writtenText (toString n).toList) ++ substitute bag after := by
  intro hAll
  have hSplit : Text.splitFirst? "||".toList (Text.trim "n".toList) = none := by decide +kernel
  have hRefers : Refers [("n", .ofInt 9007199254740993)] "n".toList
      (Place.here.fill (.ofInt 9007199254740993)) := .plain hSplit (by rfl)
  have hExact := hAll _ "n".toList [] .here 9007199254740993 (by decide) (by decide) (.inl trivial)
    hRefers (by decide) (by decide)
  have hWritten : substitute [("n", .ofInt 9007199254740993)]
      ('@' :: '(' :: ("n".toList ++ ')' :: [])) = "9007199254740992".toList := by decide +kernel
  have hDigits : shield (Place.here.writtenText (toString (9007199254740993 : Int)).toList) =
      "9007199254740993".toList := by decide +kernel
  rw [hWritten, hDigits, substitute_nil, List.append_nil] at hExact
  exact absurd hExact (by decide)

end HtmlTemplate
