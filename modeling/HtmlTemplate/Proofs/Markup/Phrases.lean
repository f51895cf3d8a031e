import HtmlTemplate.Proofs.Markup.Amid
import HtmlTemplate.Proofs.Source.Modes
import HtmlTemplate.Proofs.Source.Tags

/-! The phrases of markup. Where no control words, calls and comments are in it, markup falls
into references, tags, the content of raw elements and characters that begin nothing. -/
namespace HtmlTemplate

open Source

/-- The raw element whose content the scanner takes as it is behind a tag. -/
def rawBehind? (kind : TokenKind) (tag : List Char) : Option String :=
  let name := String.ofList ((tagName tag).map Char.toLower)
  if kind = .openingTag ∧ isRawElement name then some name else none

theorem rawBehind?_of_kind {kind : TokenKind} (h : kind ≠ .openingTag) (tag : List Char) :
    rawBehind? kind tag = none := by
  simp [rawBehind?, h]

/-- The scanner and the renderer know raw elements by the same names. -/
theorem Source.IsTag.rawBehind?_eq {tag : List Char} (h : IsTag tag) :
    rawBehind? (classifyTag tag) tag =
      (rawName? tag).map fun name => String.ofList (name.map Char.toLower) := by
  rw [h.rawName?_eq, rawBehind?]
  split <;> rfl

/-- The tokens that are found together, in front of some text. -/
inductive Phrase (behind : List Char) : List Token → Prop where
  | plain {t : Token} (hKind : t.kind ≠ .reference) (hSome : t.value.toList ≠ [])
      (hAt : '@' ∉ t.value.toList) (hTag : '<' ∉ t.value.toList)
      (hRaw : rawBehind? t.kind t.value.toList = none) : Phrase behind [t]
  | sigil {t : Token} (hKind : t.kind ≠ .reference) (hValue : t.value.toList = ['@'])
      (hBehind : behind.head? ≠ some '(') (hRaw : rawBehind? t.kind t.value.toList = none) :
      Phrase behind [t]
  | reference {t : Token} (hKind : t.kind = .reference) (hText : IsReference t.value.toList) :
      Phrase behind [t]
  | tag {t : Token} {inner : List Char} (hValue : t.value.toList = '<' :: (inner ++ ['>']))
      (hInner : '>' ∉ inner) (hKind : t.kind = classifyTag t.value.toList)
      (hRaw : rawBehind? t.kind t.value.toList = none) : Phrase behind [t]
  | raw {t : Token} {inner : List Char} {name : String} {content : List Token}
      (hValue : t.value.toList = '<' :: (inner ++ ['>'])) (hInner : '>' ∉ inner)
      (hKind : t.kind = classifyTag t.value.toList)
      (hRaw : rawBehind? t.kind t.value.toList = some name)
      (hText : content = [] ∨ ∃ u, content = [u] ∧ u.kind = .text)
      (hContent : rawContent name (valuesText content ++ behind) = valuesText content) :
      Phrase behind (t :: content)

/-- Markup that falls into phrases. -/
inductive Phrased : List Char → List Token → Prop where
  | nil : Phrased [] []
  | cons {found rest : List Token} {behind : List Char} (hFound : Phrase behind found)
      (hRest : Phrased behind rest) : Phrased (valuesText found ++ behind) (found ++ rest)

section

variable {file : String} {c : Cursor} {s : Scanned} {ch : Char}

theorem phrase_of_scanSingle {kind : TokenKind} (hKind : kind.IsSingle) (hAt : ch ≠ '@')
    (hOpen : ch ≠ '<') (behind : List Char) :
    Phrase behind (scanSingle file kind ch .markup c).tokens := by
  have hSome : (String.ofList [ch]).toList ≠ [] := by
    rw [String.toList_ofList]
    exact List.cons_ne_nil ch []
  have hNot {d : Char} (hOther : ch ≠ d) : d ∉ (String.ofList [ch]).toList := by
    rw [String.toList_ofList, List.mem_singleton]
    exact hOther.symm
  exact .plain (hKind.ne id) hSome (hNot hAt) (hNot hOpen) (rawBehind?_of_kind (hKind.ne id) _)

theorem phrase_of_scanWord (hHead : c.rest.head? = some ch) (hWord : isWordChar ch = true)
    (behind : List Char) : Phrase behind (scanWord file .markup c).tokens := by
  obtain ⟨rest, hRest⟩ := List.head?_eq_some_iff.mp hHead
  have hAll : ∀ d ∈ c.rest.takeWhile isWordChar, isWordChar d = true := fun d hd =>
    List.all_eq_true.mp List.all_takeWhile d hd
  have hSome : (String.ofList (c.rest.takeWhile isWordChar)).toList ≠ [] := by
    rw [String.toList_ofList, hRest, List.takeWhile_cons_of_pos hWord]
    exact List.cons_ne_nil ch _
  have hNot {d : Char} (hOther : isWordChar d = false) :
      d ∉ (String.ofList (c.rest.takeWhile isWordChar)).toList := by
    rw [String.toList_ofList]
    intro hMem
    cases hOther.symm.trans (hAll d hMem)
  exact .plain TokenKind.noConfusion hSome (hNot (by decide)) (hNot (by decide))
    (rawBehind?_of_kind TokenKind.noConfusion _)

/-- What one step finds in markup, if it finds anything. -/
theorem phrase_of_scanStep (hHead : c.rest.head? = some ch)
    (h : scanStep file .markup ch c = .ok s) (hKeyword : NoKeyword s.tokens)
    (hCall : ∀ t ∈ s.tokens, t.kind ≠ .call) (hSome : s.tokens ≠ [])
    (hJoined : c.rest = valuesText s.tokens ++ s.cursor.rest) : Phrase s.cursor.rest s.tokens := by
  have hReferences := references_scanStep hHead h
  cases stepped_of_scanStep hHead h with
  | single hKind _ hSigil hTag => exact phrase_of_scanSingle hKind hSigil hTag _
  | line hMode | string hMode | block hMode => cases hMode
  | comment => exact absurd rfl hSome
  | word hHead hWord => exact phrase_of_scanWord hHead hWord _
  | tag hTag _ hContent =>
      obtain ⟨inner, hText, hInner⟩ := hTag
      refine .tag (String.toList_ofList.trans hText) hInner ?_ ?_
      · exact congrArg classifyTag String.toList_ofList.symm
      · rw [Cursor.token, String.toList_ofList]
        exact if_neg fun hRaw => hContent ⟨rfl, hRaw⟩
  | @raw tag behind content texts hTag hRest hContent hFound hTexts =>
      obtain ⟨inner, hText, hInner⟩ := hTag
      have hValue : (String.ofList tag).toList = tag := String.toList_ofList
      have hValues : valuesText texts = content := by
        rw [hTexts]
        by_cases hEmpty : content = []
        · rw [if_pos hEmpty, hEmpty]
          rfl
        · rw [if_neg hEmpty]
          simp [scanCut, valuesText, Cursor.token]
      have hBehind :
          behind = valuesText texts ++ ((c.skip tag.length).skip content.length).rest := by
        have hWhole := hRest.symm.trans hJoined
        rw [valuesText_cons, Cursor.token, hValue, List.append_assoc] at hWhole
        exact List.append_cancel_left hWhole
      have hRaw : rawBehind? (classifyTag tag) (String.ofList tag).toList =
          some (String.ofList ((tagName tag).map Char.toLower)) := by
        rw [hValue]
        exact if_pos hContent.2
      refine .raw (hValue.trans hText) hInner (congrArg classifyTag hValue.symm) hRaw ?_ ?_
      · rw [hTexts]
        split
        · exact .inl rfl
        · exact .inr ⟨_, rfl, rfl⟩
      · rw [← hBehind, hValues, ← hFound, rawContent, String.toList_ofList]
  | reference => exact .reference rfl (hReferences _ List.mem_cons_self rfl)
  | @headed keyword => exact absurd rfl (hKeyword _ List.mem_cons_self keyword)
  | alternative => exact absurd rfl (hKeyword _ List.mem_cons_self .elseBranch)
  | call => exact absurd rfl (hCall _ List.mem_cons_self)
  | @sigil rest hRest hParen =>
      have hBehind : (scanSingle file .unknown '@' .markup c).cursor.rest = rest := by
        simp [scanSingle, Cursor.tokenHere, Cursor.rest_skip, hRest]
      rw [hBehind]
      exact .sigil TokenKind.noConfusion String.toList_ofList hParen
        (rawBehind?_of_kind TokenKind.noConfusion _)

end

/-- Where there are no control words, nothing but comments is passed over. -/
theorem valuesText_sublist {pieces : List Piece} (h : ∀ p ∈ pieces, p.IsPlain) :
    (valuesText (piecesTokens pieces)).Sublist (piecesText pieces) := by
  induction pieces with
  | nil => exact .slnil
  | cons p rest ih =>
      obtain ⟨hFirst, hRest⟩ := List.forall_mem_cons.mp h
      cases p with
      | copied t => exact (List.append_sublist_append_left _).mpr (ih hRest)
      | comment text => exact List.sublist_append_of_sublist_right (ih hRest)
      | block t | control t blanks | head text t blanks | line text => exact hFirst.elim

/-- Markup of which nothing is passed over falls into phrases. -/
theorem phrased_of_scanFrom {file : String} {c : Cursor} {tokens : List Token}
    (h : scanFrom file .markup c = .ok tokens) (hKeyword : NoKeyword tokens)
    (hCall : ∀ t ∈ tokens, t.kind ≠ .call) (hWhole : valuesText tokens = c.rest) :
    Phrased c.rest tokens := by
  refine scanFrom_induction (motive := fun mode c tokens => mode = .markup → NoKeyword tokens →
    (∀ t ∈ tokens, t.kind ≠ .call) → valuesText tokens = c.rest → Phrased c.rest tokens) ?_ ?_ h
      rfl hKeyword hCall hWhole
  · intro mode c hEnd _ _ _ _
    rw [List.head?_eq_none_iff.mp hEnd]
    exact .nil
  · intro mode c ch s rest hHead hStep hRest ih hMarkup hKeyword hCall hWhole
    subst hMarkup
    obtain ⟨hKeyFirst, hKeyRest⟩ := List.forall_mem_append.mp hKeyword
    obtain ⟨hCallFirst, hCallRest⟩ := List.forall_mem_append.mp hCall
    obtain ⟨pieces, hTaken, hPlain⟩ := takes_step hHead hStep
    obtain ⟨later, -, hTokens, hText, hLater⟩ := takes_all hRest
    have hMode : s.mode = .markup := by
      rcases scanStep_cases hHead hStep with ⟨hMode, -⟩ | ⟨hSetup, -⟩
      · exact hMode
      · cases hSetup
    have hFront : (valuesText s.tokens).Sublist (piecesText pieces) :=
      hTaken.tokens_eq ▸ valuesText_sublist (hPlain rfl hKeyFirst)
    have hBehind : (valuesText rest).Sublist s.cursor.rest := by
      rw [← hText, ← hTokens]
      exact valuesText_sublist (hLater hMode hKeyRest)
    rw [valuesText_append, hTaken.rest_eq] at hWhole
    -- neither this step nor the later ones leave anything out, as both together do not
    have hLength := congrArg List.length hWhole
    rw [List.length_append, List.length_append] at hLength
    have hFrontLength := hFront.length_le
    have hBehindLength := hBehind.length_le
    have hJoined : c.rest = valuesText s.tokens ++ s.cursor.rest := by
      rw [hTaken.rest_eq, hFront.eq_of_length (by omega)]
    have hPhrased := ih hMode hKeyRest hCallRest (hBehind.eq_of_length (by omega))
    by_cases hNone : s.tokens = []
    · rw [hJoined, hNone]
      exact hPhrased
    · have hPhrase := phrase_of_scanStep hHead hStep hKeyFirst hCallFirst hNone hJoined
      rw [hJoined]
      exact .cons hPhrase hPhrased

end HtmlTemplate
