import HtmlTemplate.Proofs.Markup.Amid
import HtmlTemplate.Proofs.Markup.Marks
import HtmlTemplate.Proofs.Render.Copying

/-! Raw elements are verbatim. What stands in one is one text for the scanner, is copied by
rendering and passed over by substitution, whatever it is, and it stays so when it is marked as
data. -/
namespace HtmlTemplate

open Source

/-- A text as the content of a raw element. -/
def rawText (content : List Char) : List Char :=
  "<style>".toList ++ (content ++ "</style>".toList)

/-- What the scanner makes of it. -/
def rawLexemes (content : List Char) : List (TokenKind × String) :=
  (.openingTag, "<style>") :: (contentLexemes content ++ [(.closingTag, "</style>")])

section

variable {content text more : List Char} {name : List Char} {tokens : List Token} {bag : Bag}

theorem isTag_opening : IsTag "<style>".toList :=
  ⟨⟨"style".toList, rfl, by decide⟩, by decide⟩

theorem isTag_closing : IsTag "</style>".toList :=
  ⟨⟨"/style".toList, rfl, by decide⟩, by decide⟩

theorem found_rawText (h : StaysRaw "style".toList content) (behind : List Char) :
    Found (Lexed (rawLexemes content)) (rawText content) behind := by
  have hBegins : BeginsClosing "style".toList ("</style>".toList ++ behind) :=
    BeginsClosing.append (by decide) behind
  have hFound := (found_raw isTag_opening (by decide +kernel) h hBegins).append
    (R := Lexed (rawLexemes content)) (found_tag isTag_closing (by decide +kernel) behind)
    fun s t hFront hLast => by
      unfold Lexed at hFront hLast ⊢
      rw [List.map_append, hFront, hLast]
      rfl
  rwa [List.append_assoc] at hFound

/-- Its tokens are copied wherever they are. -/
theorem copied_rawLexemes (h : Lexed (rawLexemes content) tokens) (session : Session)
    (scopes : Scopes) : Copied session scopes tokens := by
  obtain ⟨opening, _, rfl, hOpening, hRest⟩ := List.map_eq_cons_iff.mp h
  obtain ⟨inner, last, rfl, hInner, hLast⟩ := List.map_eq_append_iff.mp hRest
  obtain ⟨closing, rfl, hClosing⟩ := lexed_single hLast
  obtain ⟨hKind, hValue⟩ := Prod.mk.inj hOpening
  obtain ⟨hLastKind, hLastValue⟩ := Prod.mk.inj hClosing
  have hParts : tagParts? opening.value.toList = some ("style".toList, []) := by
    rw [hValue]
    decide
  refine copied_raw session scopes hKind hParts (by decide +kernel) ?_ ?_
  · intro u hMem
    have hText : u.kind = .text :=
      contentLexemes_kind (hInner ▸ List.mem_map_of_mem (f := Token.lexeme) hMem)
    simp [Token.closesRaw, hText]
  · rw [Token.closesRaw, hLastKind, hLastValue]
    decide

/-- They neither open nor close an element that is not raw. -/
theorem balances_rawLexemes (h : Lexed (rawLexemes content) tokens) {element : String}
    (hRaw : isRawElement element = false) :
    Balances (·.opens element) (·.closes element) 0 tokens := by
  have hStyle : "style" ≠ element := by
    rintro rfl
    exact absurd hRaw (by decide +kernel)
  apply balances_of_none
  intro t hMem
  have hLexeme := List.mem_map_of_mem (f := Token.lexeme) hMem
  rw [show tokens.map Token.lexeme = _ from h, rawLexemes, List.mem_cons, List.mem_append,
    List.mem_singleton] at hLexeme
  rcases hLexeme with hOpening | hText | hClosing
  · obtain ⟨hKind, hValue⟩ := Prod.mk.inj hOpening
    have hElement : t.element? = some "style" := by
      rw [Token.element?, hValue]
      decide +kernel
    simp [Token.opens, Token.closes, hKind, hElement, hStyle]
  · have hKind : t.kind = .text := contentLexemes_kind hText
    simp [Token.opens, Token.closes, hKind]
  · obtain ⟨hKind, hValue⟩ := Prod.mk.inj hClosing
    have hElement : t.closedElement? = some "style" := by
      rw [Token.closedElement?, hValue]
      decide +kernel
    simp [Token.opens, Token.closes, hKind, hElement, hStyle]

theorem rawOpened?_style (behind : List Char) :
    rawOpened? ("style>".toList ++ behind) = some "style" := by
  have hAlone : Text.dropPrefixIgnoringCase? "style".toList "style>".toList = some ['>'] := by
    decide
  have hName := @Text.dropPrefixIgnoringCase?_append _ _ behind _ hAlone
  have hOpens : opensRaw "style" ("style>".toList ++ behind) = true := by
    unfold opensRaw
    rw [hName]
    rfl
  unfold rawOpened? rawElements
  rw [List.find?_cons, hOpens]

/-- A raw element is as long as it is written. -/
theorem rawLength_style (h : StaysRaw "style".toList content) (more : List Char) :
    rawLength "style" ("style>".toList ++ content ++ ("</style>".toList ++ more)) =
      ("style>".toList ++ content ++ "</style>".toList).length := by
  have hName : '<' ∉ "style".toList.map Char.toLower := by decide
  have hContent : rawContent "style" ("style>".toList ++ content ++ ("</style>".toList ++ more)) =
      "style>".toList ++ content :=
    beforeClosing_append hName (h.front (by decide)) (BeginsClosing.append (by decide) more)
  have hTag := congrArg List.length (isTag_closing.takeWhile more).1
  unfold rawLength
  rw [hContent, List.drop_left, List.length_append, List.length_append, List.length_append]
  rw [List.length_append] at hTag
  exact (Nat.add_assoc ..).trans (congrArg (_ + ·) hTag)

theorem rawText_append (content more : List Char) : rawText content ++ more =
    '<' :: ("style>".toList ++ content ++ ("</style>".toList ++ more)) := by
  have hOpening : "<style>".toList = '<' :: "style>".toList := by decide
  have hRest := congrArg (· ++ (content ++ ("</style>".toList ++ more))) hOpening
  unfold rawText
  simp only [List.append_assoc]
  exact hRest

/-- Substitution passes over it. -/
theorem substitute_rawText (h : StaysRaw "style".toList content) (bag : Bag) (more : List Char) :
    substitute bag (rawText content ++ more) = rawText content ++ substitute bag more := by
  have hOpened := rawOpened?_style (content ++ ("</style>".toList ++ more))
  rw [← List.append_assoc] at hOpened
  rw [rawText_append, rawText_append, substitute_raw hOpened, keepRaw, rawLength_style h,
    ← List.append_assoc _ _ more, List.take_left, List.drop_left,
    List.append_assoc _ _ (substitute bag more)]

/-- Content is marked in its element as by itself. -/
theorem shield_rawText (content : List Char) :
    shield (rawText content) = rawText (shield content) := by
  have hClosing : shield (content ++ "</style>".toList) = shield content ++ "</style>".toList := by
    rw [shield_append (by decide), @shield_of_not_mem "</style>".toList (by decide)]
  unfold rawText
  rw [shield_append_of_not_mem (by decide), hClosing]

/-- Content that is marked as data keeps its element open. -/
theorem Source.StaysRaw.shield (h : StaysRaw "style".toList content)
    (hMark : shieldMark ∉ content) : StaysRaw "style".toList (shield content) := by
  intro hMem
  have hCommutes : ((HtmlTemplate.shield content).map Char.toLower).map
      (fun c => if c = shieldMark then '@' else c) = content.map Char.toLower := by
    have hContent := congrArg (List.map Char.toLower) (unshield_shield hMark)
    rw [← hContent, unshield, List.map_map, List.map_map]
    refine List.map_congr_left fun c _ => ?_
    have hSame : c.toLower = shieldMark ↔ c = shieldMark := toLower_eq_iff (by decide)
    simp only [Function.comp_apply, hSame]
    split <;> rfl
  have hBack := hMem.map fun c => if c = shieldMark then '@' else c
  rw [hCommutes] at hBack
  exact h hBack

end

end HtmlTemplate
