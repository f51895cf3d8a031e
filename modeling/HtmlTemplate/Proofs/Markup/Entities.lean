import HtmlTemplate.Markup.Escape

/-! Entities, and escaping as a change of notation. An escaped text has no quotes and no
brackets of tags, and its ampersands begin entities; every text of that kind is the escaped
form of exactly one text, which is read off it from left to right. -/
namespace HtmlTemplate

/-- What is written in place of a character that markup takes for its own. -/
def entities : List (List Char) :=
  ["&amp;".toList, "&lt;".toList, "&gt;".toList, "&quot;".toList, "&#039;".toList]

/-- Takes entities back from left to right. What has been taken back is not read again. -/
def unescapeHtml : List Char → List Char
  | '&' :: 'a' :: 'm' :: 'p' :: ';' :: rest => '&' :: unescapeHtml rest
  | '&' :: 'l' :: 't' :: ';' :: rest => '<' :: unescapeHtml rest
  | '&' :: 'g' :: 't' :: ';' :: rest => '>' :: unescapeHtml rest
  | '&' :: 'q' :: 'u' :: 'o' :: 't' :: ';' :: rest => '"' :: unescapeHtml rest
  | '&' :: '#' :: '0' :: '3' :: '9' :: ';' :: rest => '\'' :: unescapeHtml rest
  | c :: rest => c :: unescapeHtml rest
  | [] => []

/-- The characters that do not stand for themselves in markup, but for the one that
entities begin with. -/
def IsMark (c : Char) : Prop :=
  c = '<' ∨ c = '>' ∨ c = '"' ∨ c = '\''

/-- A text in which nothing can be taken for markup. -/
structure Escaped (text : List Char) : Prop where
  unmarked : ∀ c ∈ text, ¬IsMark c
  entity : ∀ before behind, text = before ++ '&' :: behind →
    ∃ entity ∈ entities, entity <+: '&' :: behind

theorem unescapeHtml_cons {c : Char} (h : c ≠ '&') (rest : List Char) :
    unescapeHtml (c :: rest) = c :: unescapeHtml rest := by
  rw [unescapeHtml.eq_def]
  split <;> simp_all

/-- A character is escaped by an entity or left as it is. -/
theorem escapeChar_cases (c : Char) :
    (escapeChar c ∈ entities ∧ ∀ rest, unescapeHtml (escapeChar c ++ rest) = c :: unescapeHtml rest) ∨
    (escapeChar c = [c] ∧ ¬IsMark c ∧ c ≠ '&') := by
  unfold escapeChar
  split
  · exact .inl ⟨by decide, fun _ => rfl⟩
  · exact .inl ⟨by decide, fun _ => rfl⟩
  · exact .inl ⟨by decide, fun _ => rfl⟩
  · exact .inl ⟨by decide, fun _ => rfl⟩
  · exact .inl ⟨by decide, fun _ => rfl⟩
  · exact .inr ⟨rfl, by simp_all [IsMark], by assumption⟩

theorem escapeHtml_cons (c : Char) (text : List Char) :
    escapeHtml (c :: text) = escapeChar c ++ escapeHtml text :=
  List.flatMap_cons

namespace Escaped

theorem nil : Escaped [] :=
  ⟨nofun, fun before behind h => by simp at h⟩

theorem suffix {text rest : List Char} (h : Escaped text) (hSuffix : rest <:+ text) :
    Escaped rest := by
  obtain ⟨front, rfl⟩ := hSuffix
  refine ⟨fun c hc => h.unmarked c (List.mem_append_right front hc), ?_⟩
  rintro before behind rfl
  exact h.entity (front ++ before) behind (List.append_assoc ..).symm

theorem cons {c : Char} {rest : List Char} (h : Escaped rest) (hMark : ¬IsMark c) (hc : c ≠ '&') :
    Escaped (c :: rest) := by
  refine ⟨List.forall_mem_cons.mpr ⟨hMark, h.unmarked⟩, ?_⟩
  intro before behind hText
  cases before with
  | nil => exact absurd (List.cons.inj hText).1 hc
  | cons d before => exact h.entity before behind (List.cons.inj hText).2

/-- In front of an escaped text an entity may stand: its only ampersand is the first of its
characters. -/
theorem entity_append {entity rest : List Char} (h : Escaped rest) (hEntity : entity ∈ entities) :
    Escaped (entity ++ rest) := by
  have hShape : ∀ entity ∈ entities, (∀ c ∈ entity, ¬IsMark c) ∧ '&' ∉ entity.tail := by
    simp [entities, IsMark]
  obtain ⟨hMarks, hTail⟩ := hShape entity hEntity
  refine ⟨List.forall_mem_append.mpr ⟨hMarks, h.unmarked⟩, ?_⟩
  intro before behind hText
  rcases List.append_eq_append_iff.mp hText with ⟨middle, rfl, hRest⟩ | ⟨middle, rfl, hRest⟩
  · exact h.entity middle behind hRest
  · cases middle with
    | nil => exact h.entity [] behind hRest.symm
    | cons d middle =>
        obtain ⟨rfl, rfl⟩ := List.cons.inj hRest
        cases before with
        | nil => exact ⟨_, hEntity, List.prefix_append _ _⟩
        | cons d before => exact absurd (by simp) hTail

end Escaped

theorem escaped_escapeHtml (text : List Char) : Escaped (escapeHtml text) := by
  induction text with
  | nil => exact .nil
  | cons c text ih =>
      rw [escapeHtml_cons]
      rcases escapeChar_cases c with ⟨hEntity, -⟩ | ⟨hSame, hMark, hc⟩
      · exact ih.entity_append hEntity
      · rw [hSame]
        exact ih.cons hMark hc

/-- An entity stands for the character it was written for, also where that character and
those behind it look like an entity again. -/
theorem unescapeHtml_escapeHtml (text : List Char) : unescapeHtml (escapeHtml text) = text := by
  induction text with
  | nil => rfl
  | cons c text ih =>
      rw [escapeHtml_cons]
      rcases escapeChar_cases c with ⟨-, hBack⟩ | ⟨hSame, -, hc⟩
      · rw [hBack, ih]
      · rw [hSame, List.singleton_append, unescapeHtml_cons hc, ih]

/-- What looks like an entity in a text is escaped as well. -/
example : escapeHtml "&lt;<".toList = "&amp;lt;&lt;".toList := by decide

theorem escapeChar_of_unmarked {c : Char} (hMark : ¬IsMark c) (hc : c ≠ '&') :
    escapeChar c = [c] := by
  unfold escapeChar
  split <;> simp_all [IsMark]

/-- Nothing but escaping makes escaped texts. -/
theorem escapeHtml_unescapeHtml {text : List Char} (h : Escaped text) :
    escapeHtml (unescapeHtml text) = text := by
  fun_induction unescapeHtml text with
  | case1 rest ih => rw [escapeHtml_cons, ih (h.suffix ⟨"&amp;".toList, rfl⟩)]; rfl
  | case2 rest ih => rw [escapeHtml_cons, ih (h.suffix ⟨"&lt;".toList, rfl⟩)]; rfl
  | case3 rest ih => rw [escapeHtml_cons, ih (h.suffix ⟨"&gt;".toList, rfl⟩)]; rfl
  | case4 rest ih => rw [escapeHtml_cons, ih (h.suffix ⟨"&quot;".toList, rfl⟩)]; rfl
  | case5 rest ih => rw [escapeHtml_cons, ih (h.suffix ⟨"&#039;".toList, rfl⟩)]; rfl
  | case6 c rest hAmp hLt hGt hQuot hApos ih =>
      have hc : c ≠ '&' := by
        rintro rfl
        obtain ⟨entity, hEntity, behind, hText⟩ := h.entity [] rest rfl
        simp only [entities, List.mem_cons, List.not_mem_nil, or_false] at hEntity
        rcases hEntity with rfl | rfl | rfl | rfl | rfl
        · exact hAmp behind rfl (List.cons.inj hText).2.symm
        · exact hLt behind rfl (List.cons.inj hText).2.symm
        · exact hGt behind rfl (List.cons.inj hText).2.symm
        · exact hQuot behind rfl (List.cons.inj hText).2.symm
        · exact hApos behind rfl (List.cons.inj hText).2.symm
      rw [escapeHtml_cons, escapeChar_of_unmarked (h.unmarked c List.mem_cons_self) hc,
        ih (h.suffix (List.suffix_cons c rest))]
      rfl
  | case7 => rfl

/-- The only text that an escaped text can come from is the one that is read off it. -/
theorem escapeHtml_eq_iff {text escaped : List Char} :
    escapeHtml text = escaped ↔ Escaped escaped ∧ unescapeHtml escaped = text := by
  constructor
  · rintro rfl
    exact ⟨escaped_escapeHtml text, unescapeHtml_escapeHtml text⟩
  · rintro ⟨hEscaped, rfl⟩
    exact escapeHtml_unescapeHtml hEscaped

/-- Escaping leaves no markup, is undone by taking its entities back, tells different texts
apart and goes part by part; the texts it leads to are all the texts without markup. -/
theorem escapeHtml_faithful (text other : List Char) :
    Escaped (escapeHtml text) ∧ unescapeHtml (escapeHtml text) = text ∧
    (escapeHtml text = escapeHtml other ↔ text = other) ∧
    escapeHtml (text ++ other) = escapeHtml text ++ escapeHtml other ∧
    (Escaped other ↔ ∃ plain, escapeHtml plain = other) := by
  refine ⟨escaped_escapeHtml text, unescapeHtml_escapeHtml text, ⟨fun hSame => ?_, congrArg _⟩,
    escapeHtml_append text other, ⟨fun hEscaped => ?_, ?_⟩⟩
  · exact (escapeHtml_eq_iff.mp hSame).2.symm.trans (unescapeHtml_escapeHtml other)
  · exact ⟨unescapeHtml other, escapeHtml_eq_iff.mpr ⟨hEscaped, rfl⟩⟩
  · rintro ⟨plain, hPlain⟩
    exact (escapeHtml_eq_iff.mp hPlain).1

end HtmlTemplate
