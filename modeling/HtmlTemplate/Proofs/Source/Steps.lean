import HtmlTemplate.Proofs.Result
import HtmlTemplate.Source.Stream

/-! What one step of the scanner finds, with one rule for each thing that it can come upon.
What holds of all steps is shown by cases of these rules. -/
namespace HtmlTemplate

/-- The kinds of tokens that are single characters. -/
def TokenKind.IsSingle : TokenKind → Prop
  | .blank | .openParen | .closeParen | .unknown => True
  | _ => False

theorem TokenKind.IsSingle.ne {kind other : TokenKind} (h : kind.IsSingle)
    (hOther : ¬other.IsSingle) : kind ≠ other := by
  rintro rfl
  exact hOther h

namespace Source

variable {file : String} {mode : ScanMode} {c after : Cursor} {s : Scanned}

theorem scanBlock_eq_ok {token : Token} :
    scanBlock file mode c = .ok (token, after) ↔
      ∃ taken, enclosed? (braces mode) 0 none (c.rest.drop 1) = some taken ∧
        c.token file .block taken.dropLast (taken.length + 1) = (token, after) := by
  unfold scanBlock
  cases enclosed? (braces mode) 0 none (c.rest.drop 1) <;> simp

theorem scanBlock_kind {token : Token} (h : scanBlock file mode c = .ok (token, after)) :
    token.kind = .block := by
  obtain ⟨taken, -, hToken⟩ := scanBlock_eq_ok.mp h
  cases hToken
  rfl

theorem scanHead_eq_ok {keyword : Keyword} {kind : TokenKind} {token : Token} :
    scanHead file keyword kind c = .ok (token, after) ↔
      ∃ rest taken, (c.skipWhile isSpace).rest = '(' :: rest ∧
        enclosed? parens 0 none rest = some taken ∧
        ((c.skipWhile isSpace).skip (taken.length + 1)).token file kind
          ('(' :: dropSpaces none taken) 0 = (token, after) := by
  unfold scanHead
  dsimp only
  cases hRest : (c.skipWhile isSpace).rest with
  | nil => simp
  | cons ch rest =>
      by_cases hOpen : ch = '('
      · subst hOpen
        cases hTaken : enclosed? parens 0 none rest <;> simp [hTaken]
      · simp [hOpen]

theorem scanHead_kind {keyword : Keyword} {kind : TokenKind} {token : Token}
    (h : scanHead file keyword kind c = .ok (token, after)) : token.kind = kind := by
  obtain ⟨rest, taken, -, -, hToken⟩ := scanHead_eq_ok.mp h
  cases hToken
  rfl

/-- Behind the white space there is a block, or there is none. -/
theorem scanOptionalBlock_cases {tokens : List Token}
    (h : scanOptionalBlock file mode c = .ok (tokens, after)) :
    (tokens = [] ∧ after = c.skipWhile isSpace) ∨
      ∃ token, tokens = [token] ∧ (c.skipWhile isSpace).rest.head? = some '\x7b' ∧
        scanBlock file mode (c.skipWhile isSpace) = .ok (token, after) := by
  unfold scanOptionalBlock at h
  dsimp only at h
  split at h
  · next hHead =>
    obtain ⟨⟨token, last⟩, hBlock, hFound⟩ := map_eq_ok.mp h
    cases hFound
    exact .inr ⟨token, rfl, hHead, hBlock⟩
  · cases h
    exact .inl ⟨rfl, rfl⟩

theorem scanHeaded_eq_ok {keyword : Keyword} {kind : TokenKind} :
    scanHeaded file keyword kind mode c = .ok s ↔
      ∃ head middle, scanHead file keyword kind (scanKeyword file keyword c).2 =
        .ok (head, middle) ∧ ∃ block last, scanOptionalBlock file mode middle = .ok (block, last) ∧
          ⟨(scanKeyword file keyword c).1 :: head :: block, mode, last⟩ = s := by
  simp only [scanHeaded, bind_eq_ok, Prod.exists, pure, Except.pure, Except.ok.injEq]

theorem scanElse_eq_ok :
    scanElse file mode c = .ok s ↔
      ∃ block last,
        scanOptionalBlock file mode (scanKeyword file .elseBranch c).2 = .ok (block, last) ∧
          ⟨(scanKeyword file .elseBranch c).1 :: block, mode, last⟩ = s := by
  simp only [scanElse, bind_eq_ok, Prod.exists, pure, Except.pure, Except.ok.injEq]

theorem classifyTag_cases (tag : List Char) : classifyTag tag = .doctype ∨
    classifyTag tag = .closingTag ∨ classifyTag tag = .selfClosingTag ∨
    classifyTag tag = .openingTag := by
  unfold classifyTag
  split
  · exact .inl rfl
  split
  · exact .inr (.inl rfl)
  split
  · exact .inr (.inr (.inl rfl))
  · exact .inr (.inr (.inr rfl))

/-- The characters in front as one token, placed where it ends. -/
def scanCut (file : String) (kind : TokenKind) (value : List Char) (mode : ScanMode) (c : Cursor) :
    Scanned :=
  ⟨[(c.token file kind value value.length).1], mode, c.skip value.length⟩

/-- Whether the content of an element is taken along with the tag that opens it. -/
def TakesContent (mode : ScanMode) (tag : List Char) : Prop :=
  mode = .markup ∧ classifyTag tag = .openingTag ∧
    isRawElement (String.ofList ((tagName tag).map Char.toLower)) = true

/-- What one step of the scanner finds. -/
inductive Stepped (file : String) (mode : ScanMode) (c : Cursor) : Scanned → Prop where
  | single {kind : TokenKind} {ch : Char} (hKind : kind.IsSingle) (hHead : c.rest.head? = some ch)
      (hSigil : ch ≠ '@') (hTag : ch ≠ '<') : Stepped file mode c (scanSingle file kind ch mode c)
  | line (hMode : mode = .setup) (hHead : c.rest.head? = some '#') :
      Stepped file mode c ⟨[], mode, c.skip ((c.rest.takeWhile (· ≠ '\n')).length + 1)⟩
  | comment {rest before behind : List Char} (hMode : mode = .markup)
      (hRest : c.rest = "<!--".toList ++ rest)
      (hFound : Text.splitFirst? "-->".toList rest = some (before, behind)) :
      Stepped file mode c ⟨[], mode, c.skip (before.length + 7)⟩
  | word {ch : Char} (hHead : c.rest.head? = some ch) (hWord : isWordChar ch = true) :
      Stepped file mode c (scanWord file mode c)
  | string {quote : Char} {rest taken : List Char} (hMode : mode = .setup)
      (hRest : c.rest = quote :: rest) (hTaken : closeQuote? quote rest = some taken) :
      Stepped file mode c (scanCut file .string (quote :: taken) mode c)
  | tag {tag behind : List Char} (hTag : ∃ inner, tag = '<' :: (inner ++ ['>']) ∧ '>' ∉ inner)
      (hRest : c.rest = tag ++ behind) (hContent : ¬TakesContent mode tag) :
      Stepped file mode c (scanCut file (classifyTag tag) tag mode c)
  | raw {tag behind content : List Char} {texts : List Token}
      (hTag : ∃ inner, tag = '<' :: (inner ++ ['>']) ∧ '>' ∉ inner)
      (hRest : c.rest = tag ++ behind) (hContent : TakesContent mode tag)
      (hFound : beforeClosing ('<' :: '/' :: (tagName tag).map Char.toLower) behind = content)
      (hTexts : texts = if content = [] then [] else
        (scanCut file .text content mode (c.skip tag.length)).tokens) :
      Stepped file mode c ⟨(c.token file (classifyTag tag) tag tag.length).1 :: texts, mode,
        (c.skip tag.length).skip content.length⟩
  | reference {rest taken : List Char} (hRest : c.rest = '@' :: '(' :: rest)
      (hTaken : enclosed? plainParens 0 none rest = some taken) :
      Stepped file mode c (scanCut file .reference ('@' :: '(' :: taken) mode c)
  | headed {keyword : Keyword} {kind : TokenKind} {behind : List Char} {head : Token}
      {block : List Token} {middle last : Cursor}
      (hWord : keyword = .ifBranch ∧ kind = .condition ∨ keyword = .eachItem ∧ kind = .each)
      (hRest : c.rest = keyword.text.toList ++ behind)
      (hHead : scanHead file keyword kind (scanKeyword file keyword c).2 = .ok (head, middle))
      (hBlock : scanOptionalBlock file mode middle = .ok (block, last)) :
      Stepped file mode c ⟨(scanKeyword file keyword c).1 :: head :: block, mode, last⟩
  | alternative {behind : List Char} {block : List Token} {last : Cursor}
      (hRest : c.rest = Keyword.elseBranch.text.toList ++ behind)
      (hBlock :
        scanOptionalBlock file mode (scanKeyword file .elseBranch c).2 = .ok (block, last)) :
      Stepped file mode c ⟨(scanKeyword file .elseBranch c).1 :: block, mode, last⟩
  | call {rest call : List Char} (hRest : c.rest = '@' :: rest)
      (hCall : callText? rest = some call) :
      Stepped file mode c (scanCut file .call ('@' :: call) mode c)
  | sigil {rest : List Char} (hRest : c.rest = '@' :: rest) (hParen : rest.head? ≠ some '(') :
      Stepped file mode c (scanSingle file .unknown '@' mode c)
  | block {token : Token} {last : Cursor} (hMode : mode = .setup)
      (hHead : c.rest.head? = some '\x7b') (hBlock : scanBlock file mode c = .ok (token, last)) :
      Stepped file mode c ⟨[token], mode, last⟩

/-- What ends a run is the first that does not belong to it. -/
theorem of_dropWhile_eq_cons {α : Type} {p : α → Bool} {text rest : List α} {first : α}
    (h : text.dropWhile p = first :: rest) : p first = false := by
  have hFirst := List.head?_dropWhile_not p text
  simpa only [h, List.head?_cons] using hFirst

theorem stepped_of_scanTag (hHead : c.rest.head? = some '<') (h : scanTag file mode c = .ok s) :
    Stepped file mode c s := by
  obtain ⟨rest, hText⟩ := List.head?_eq_some_iff.mp hHead
  unfold scanTag at h
  dsimp only at h
  split at h
  · cases h
  · next last behind hLast =>
    have hClosing : last = '>' := by simpa using of_dropWhile_eq_cons hLast
    subst hClosing
    have hRest : c.rest = (c.rest.takeWhile (· ≠ '>') ++ ['>']) ++ behind := by
      rw [List.append_assoc, List.singleton_append, ← hLast, List.takeWhile_append_dropWhile]
    have hTag : ∃ inner, c.rest.takeWhile (· ≠ '>') ++ ['>'] = '<' :: (inner ++ ['>']) ∧
        '>' ∉ inner := by
      refine ⟨rest.takeWhile (· ≠ '>'), by rw [hText]; rfl, fun hMem => ?_⟩
      simpa using List.all_eq_true.mp List.all_takeWhile _ hMem
    have hLength : (c.rest.takeWhile (· ≠ '>')).length + 1 =
        (c.rest.takeWhile (· ≠ '>') ++ ['>']).length := by
      rw [List.length_append, List.length_singleton]
    rw [hLength] at h
    generalize c.rest.takeWhile (· ≠ '>') ++ ['>'] = tag at hRest hTag h
    have hBehind : (c.token file (classifyTag tag) tag tag.length).2.rest = behind := by
      rw [Cursor.token, Cursor.rest_skip, hRest, List.drop_left]
    rw [hBehind] at h
    split at h
    · next hContent =>
      cases h
      have hTakes : TakesContent mode tag := by simpa [TakesContent, and_assoc] using hContent
      rw [← apply_ite (List.cons _)]
      exact .raw hTag hRest hTakes rfl rfl
    · next hContent =>
      cases h
      have hNone : ¬TakesContent mode tag := by simpa [TakesContent, and_assoc] using hContent
      exact .tag hTag hRest hNone

theorem stepped_of_scanString {quote : Char} (hMode : mode = .setup)
    (hHead : c.rest.head? = some quote) (h : scanString file quote mode c = .ok s) :
    Stepped file mode c s := by
  obtain ⟨rest, hRest⟩ := List.head?_eq_some_iff.mp hHead
  unfold scanString at h
  split at h
  · cases h
  · next taken hTaken =>
    cases h
    rw [hRest, List.drop_succ_cons, List.drop_zero] at hTaken
    exact .string hMode hRest hTaken

theorem stepped_of_scanComment (hMode : mode = .markup)
    (hStart : "<!--".toList.isPrefixOf c.rest = true) (h : scanComment file mode c = .ok s) :
    Stepped file mode c s := by
  obtain ⟨rest, hRest⟩ := List.isPrefixOf_iff_prefix.mp hStart
  unfold scanComment at h
  split at h
  · cases h
  · next before behind hFound =>
    cases h
    rw [← hRest] at hFound
    exact .comment hMode hRest.symm hFound

theorem atControlWord_prefix {word : String} {rest : List Char}
    (h : atControlWord word rest = true) : ∃ behind, rest = word.toList ++ behind := by
  unfold atControlWord at h
  cases hRest : Text.dropPrefix? word.toList rest with
  | none => simp [hRest] at h
  | some behind => exact ⟨behind, Text.dropPrefix?_eq_some hRest⟩

theorem stepped_of_scanAt (hHead : c.rest.head? = some '@') (h : scanAt file mode c = .ok s) :
    Stepped file mode c s := by
  obtain ⟨rest, hRest⟩ := List.head?_eq_some_iff.mp hHead
  have hControl (keyword : Keyword) {word : String} (hWord : atControlWord word rest = true)
      (hText : keyword.text.toList = '@' :: word.toList) :
      ∃ behind, c.rest = keyword.text.toList ++ behind := by
    obtain ⟨behind, rfl⟩ := atControlWord_prefix hWord
    exact ⟨behind, by rw [hRest, hText, List.cons_append]⟩
  unfold scanAt at h
  dsimp only at h
  rw [hRest, List.drop_succ_cons, List.drop_zero] at h
  split at h
  · next hParen =>
    obtain ⟨inner, rfl⟩ := List.head?_eq_some_iff.mp hParen
    split at h
    · cases h
    · next taken hTaken =>
      cases h
      exact .reference hRest hTaken
  next hParen =>
  split at h
  · next hIf =>
    obtain ⟨behind, hText⟩ := hControl .ifBranch hIf (by decide)
    obtain ⟨head, middle, hHead, block, last, hBlock, rfl⟩ := scanHeaded_eq_ok.mp h
    exact .headed (.inl ⟨rfl, rfl⟩) hText hHead hBlock
  split at h
  · next hElse =>
    obtain ⟨behind, hText⟩ := hControl .elseBranch hElse (by decide)
    obtain ⟨block, last, hBlock, rfl⟩ := scanElse_eq_ok.mp h
    exact .alternative hText hBlock
  split at h
  · next hEach =>
    obtain ⟨behind, hText⟩ := hControl .eachItem hEach (by decide)
    obtain ⟨head, middle, hHead, block, last, hBlock, rfl⟩ := scanHeaded_eq_ok.mp h
    exact .headed (.inr ⟨rfl, rfl⟩) hText hHead hBlock
  split at h
  · next call hCall =>
    cases h
    exact .call hRest hCall
  · cases h
    exact .sigil hRest hParen

/-- The scanner finds what the rules say. -/
theorem stepped_of_scanStep {ch : Char} (hHead : c.rest.head? = some ch)
    (h : scanStep file mode ch c = .ok s) : Stepped file mode c s := by
  have hNone {kind : TokenKind} (hKind : kind.IsSingle) (hSigil : ch ≠ '@') (hTag : ch ≠ '<') :
      Stepped file mode c (scanSingle file kind ch mode c) := .single hKind hHead hSigil hTag
  unfold scanStep at h
  split at h
  · next hSpace =>
    cases h
    exact hNone trivial (by rintro rfl; cases hSpace) (by rintro rfl; cases hSpace)
  split at h
  · next hLine =>
    simp only [Bool.and_eq_true, decide_eq_true_eq] at hLine
    obtain ⟨rfl, hMode⟩ := hLine
    cases h
    exact .line hMode hHead
  split at h
  · next hComment =>
    simp only [Bool.and_eq_true, decide_eq_true_eq] at hComment
    exact stepped_of_scanComment hComment.1 hComment.2 h
  split at h
  · next hWord =>
    cases h
    exact .word hHead hWord
  split at h
  · next hQuote =>
    simp only [Bool.and_eq_true, decide_eq_true_eq] at hQuote
    exact stepped_of_scanString hQuote.2 hHead h
  split at h
  · next hOpen =>
    cases h
    exact hNone trivial (hOpen ▸ by decide) (hOpen ▸ by decide)
  split at h
  · next hClose =>
    cases h
    exact hNone trivial (hClose ▸ by decide) (hClose ▸ by decide)
  split at h
  · next hTag => exact stepped_of_scanTag (hTag ▸ hHead) h
  next hTag =>
  split at h
  · next hSigil => exact stepped_of_scanAt (hSigil ▸ hHead) h
  next hSigil =>
  split at h
  · next hBrace =>
    simp only [Bool.and_eq_true, decide_eq_true_eq] at hBrace
    obtain ⟨⟨token, last⟩, hBlock, h⟩ := bind_eq_ok.mp h
    cases h
    exact .block hBrace.2 (hBrace.1 ▸ hHead) hBlock
  · cases h
    exact hNone trivial hSigil hTag

end Source

end HtmlTemplate
