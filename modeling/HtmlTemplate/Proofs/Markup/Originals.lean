import HtmlTemplate.Proofs.Data.Paths
import HtmlTemplate.Proofs.Markup.Escaping

/-! Escaped parameters and the given ones. A path leads in the escaped parameters to what it
leads to in the given ones, escaped; with the name of the raw data in front of it, it leads to
that as it was given. -/
namespace HtmlTemplate

/-- A path has a key once one has been begun. -/
theorem pathKeys_ne_nil {skip : Nat} {state : PathState} {current text : List Char}
    (h : state = .plain → current ≠ []) : pathKeys skip state current text ≠ [] := by
  fun_induction pathKeys skip state current text with
  | case1 => exact absurd rfl (h rfl)
  | case2 | case3 | case5 | case8 => exact List.cons_ne_nil _ _
  | case4 skip state current c rest ih => exact ih h
  | case6 current rest hDot quote before ih =>
      exact List.append_ne_nil_of_right_ne_nil _ (ih fun hPlain => by cases hPlain)
  | case7 current c rest hDot hBracket ih => exact ih fun _ => List.cons_ne_nil _ _
  | case9 quote current c rest hOpen ih => exact ih fun hPlain => by cases hPlain

/-- A path with something in it is cut as it is, blanks at its ends aside. -/
theorem pathSegments_eq_pathKeys {path : String} (hSome : Text.trim path.toList ≠ []) :
    pathSegments path = pathKeys 0 .plain [] (Text.trim path.toList) := by
  have hKeys : pathKeys 0 .plain [] (Text.trim path.toList) ≠ [] := by
    obtain ⟨c, rest, hText⟩ := List.exists_cons_of_ne_nil hSome
    rw [hText, pathKeys]
    split
    · exact List.cons_ne_nil _ _
    · split
      · exact pathKeys_ne_nil fun hPlain => by cases hPlain
      · exact pathKeys_ne_nil fun _ => List.cons_ne_nil _ _
  unfold pathSegments
  split
  · next hNone => exact absurd hNone hKeys
  · rfl

/-- The name of the raw data in front of a path is a key of its own. -/
theorem pathSegments_underscore {path : String} (hSome : path ≠ "")
    (hTrimmed : Text.trim path.toList = path.toList) :
    pathSegments ("_." ++ path) = rawKey :: pathSegments path := by
  have hText : path.toList ≠ [] := fun h => hSome (String.toList_eq_nil_iff.mp h)
  have hWhole : Text.trim ("_." ++ path).toList = '_' :: '.' :: path.toList := by
    have hBehind : ("_." ++ path).toList = '_' :: '.' :: path.toList := String.toList_append
    rw [hBehind, Text.trim_eq_self_iff]
    refine ⟨fun c hc => ?_, fun c hc => (Text.trim_eq_self_iff.mp hTrimmed).2 c ?_⟩
    · cases hc
      decide
    · rwa [List.getLast?_cons_cons, List.getLast?_cons_of_ne_nil hText] at hc
  have hRest := pathSegments_eq_pathKeys (hTrimmed.symm ▸ hText)
  rw [pathSegments_eq_pathKeys (hWhole ▸ List.cons_ne_nil _ _), hWhole, hRest, hTrimmed]
  rfl

namespace Bag

/-- Looking up commutes with escaping. A path leads in the escaped parameters to what it leads to
in the given ones, escaped, unless it begins with the name of the raw data. Behind that name it
leads to what it leads to in the given ones, even if these have an entry of that name. -/
theorem lookup?_of_sanitized (bag : Bag) (path : String) :
    ((pathSegments path).head? ≠ some rawKey →
      bag.sanitize.lookup? path = (bag.lookup? path).map Data.escape) ∧
    (path ≠ "" → Text.trim path.toList = path.toList →
      bag.sanitize.lookup? ("_." ++ path) = bag.lookup? path) := by
  refine ⟨bag.lookup?_sanitize, fun hSome hTrimmed => ?_⟩
  rw [bag.lookup?_eq_get?, Data.get?, lookup?, pathSegments_underscore hSome hTrimmed]
  dsimp only
  rw [sanitize, get?_insert, if_pos rfl, Option.bind_some]

/-- Parameters with an entry of the name that the raw data is put under. -/
def shadowedRaw : Bag :=
  [("_", .array [.string "<i>"]), ("a", .array [.string "<b>"])]

/-- That entry is covered by the raw data, within which it is found. -/
theorem shadowedRaw_lookup? :
    (pathSegments "a[0]").head? ≠ some rawKey ∧ Text.trim "_[0]".toList = "_[0]".toList ∧
    shadowedRaw.sanitize.lookup? "a[0]" = some (.string "&lt;b&gt;") ∧
    shadowedRaw.sanitize.lookup? ("_." ++ "_[0]") = some (.string "<i>") :=
  have hOther : (pathSegments "a[0]").head? ≠ some rawKey := by decide
  have hTrimmed : Text.trim "_[0]".toList = "_[0]".toList := by decide
  ⟨hOther, hTrimmed, (shadowedRaw.lookup?_of_sanitized "a[0]").1 hOther,
    (shadowedRaw.lookup?_of_sanitized "_[0]").2 (by decide) hTrimmed⟩

end Bag

end HtmlTemplate
