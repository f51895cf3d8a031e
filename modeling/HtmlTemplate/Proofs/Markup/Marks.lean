import HtmlTemplate.Markup.Reference
import Mathlib.Data.List.Basic

/-! Texts that are marked as data. Marks are set between an `@` and a parenthesis and taken back
from everywhere. -/
namespace HtmlTemplate

variable {text more : List Char}

theorem shield_cons (c : Char) (rest : List Char) : shield (c :: rest) =
    (if c = '@' && rest.head? = some '(' then shieldMark else c) :: shield rest := by
  cases rest with
  | nil => simp [shield]
  | cons d rest =>
      rw [shield, List.head?_cons]
      by_cases hMarked : (c = '@' && d = '(') = true
      · rw [if_pos hMarked, if_pos (by simpa using hMarked)]
      · rw [if_neg hMarked, if_neg (by simpa using hMarked)]

/-- What holds no `@` is not marked. -/
theorem shield_append_of_not_mem (h : '@' ∉ text) :
    shield (text ++ more) = text ++ shield more := by
  induction text with
  | nil => rfl
  | cons c rest ih =>
      obtain ⟨hFirst, hRest⟩ := List.ne_and_not_mem_of_not_mem_cons h
      rw [List.cons_append, shield_cons, ih hRest]
      simp [Ne.symm hFirst]

theorem shield_of_not_mem (h : '@' ∉ text) : shield text = text := by
  have hText := @shield_append_of_not_mem text [] h
  rwa [List.append_nil, shield, List.append_nil] at hText

theorem shield_append (h : more.head? ≠ some '(') :
    shield (text ++ more) = shield text ++ shield more := by
  induction text with
  | nil => rfl
  | cons c rest ih =>
      have hHead : (rest ++ more).head? = some '(' ↔ rest.head? = some '(' := by
        cases rest with
        | nil => exact ⟨fun hMore => absurd hMore h, nofun⟩
        | cons d rest => rfl
      rw [List.cons_append, shield_cons, shield_cons, ih, decide_eq_decide.mpr hHead]
      rfl

/-- Marks that are set are taken back. -/
theorem unshield_shield (h : shieldMark ∉ text) : unshield (shield text) = text := by
  induction text with
  | nil => rfl
  | cons c rest ih =>
      obtain ⟨hFirst, hRest⟩ := List.ne_and_not_mem_of_not_mem_cons h
      have hLater := ih hRest
      unfold unshield at hLater ⊢
      rw [shield_cons, List.map_cons, hLater]
      by_cases hMarked : (c = '@' && rest.head? = some '(') = true
      · simp_all
      · rw [if_neg hMarked, if_neg (Ne.symm hFirst)]

/-- Taking marks back leaves exactly the texts as they are that have none. -/
theorem unshield_eq_self_iff {text : List Char} : unshield text = text ↔ shieldMark ∉ text := by
  have hNone : shieldMark ∉ unshield text := by
    unfold unshield
    rw [List.mem_map]
    rintro ⟨c, -, hSame⟩
    split at hSame
    · exact absurd hSame (by decide)
    · next hOther => exact hOther hSame
  constructor
  · intro hSame
    rwa [hSame] at hNone
  · intro hText
    apply (List.map_congr_left fun c hMem => ?_).trans (List.map_id text)
    have hOther : c ≠ shieldMark := fun hSame => hText (hSame ▸ hMem)
    exact if_neg hOther

end HtmlTemplate
