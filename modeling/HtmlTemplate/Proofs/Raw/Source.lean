import HtmlTemplate.Proofs.Raw.Plain
import HtmlTemplate.Proofs.Source.Modes

/-! The tokens of plain source. A token holds characters of the text that it was found in
or is a keyword, and no keyword has the character that names the raw data. -/
namespace HtmlTemplate

open Text (Plain)

/-- A token that cannot name the raw data. -/
def Token.Plain (t : Token) : Prop := Text.Plain t.value.toList

theorem Keyword.plain_text (keyword : Keyword) : Plain keyword.text.toList := by
  cases keyword <;> decide

theorem Cursor.plain_skip {c : Cursor} (h : Plain c.rest) (n : Nat) : Plain (c.skip n).rest := by
  rw [rest_skip]
  exact h.drop n

theorem Cursor.plain_skipWhile {c : Cursor} (h : Plain c.rest) (p : Char → Bool) :
    Plain (c.skipWhile p).rest :=
  plain_skip h _

theorem Token.plain_ofList {kind : TokenKind} {value : List Char} {span : Span} {file : String}
    (h : Text.Plain value) : (⟨kind, String.ofList value, span, file⟩ : Token).Plain :=
  Text.plain_ofList.mpr h

namespace Source

/-! What is found by looking ahead. -/

theorem plain_closeQuote {quote : Char} {text taken : List Char} (h : Plain text)
    (hTaken : closeQuote? quote text = some taken) : Plain taken := by
  have hPrefix := closeQuote?_prefix hTaken
  exact h.subset hPrefix.subset

theorem plain_enclosed {b : Brackets} {depth : Nat} {quote : Option Char} {text taken : List Char}
    (h : Plain text) (hTaken : enclosed? b depth quote text = some taken) : Plain taken := by
  have hPrefix := enclosed?_prefix hTaken
  exact h.subset hPrefix.subset

theorem dropSpaces_subset (quote : Option Char) (text : List Char) :
    dropSpaces quote text ⊆ text := by
  fun_induction dropSpaces quote text with
  | case1 => exact List.Subset.refl _
  | case2 => exact List.Subset.refl _
  | case3 _ d rest ih => exact List.cons_subset_cons _ (List.cons_subset_cons d ih)
  | case4 quote c rest _ ih => exact List.cons_subset_cons c ih
  | case5 c rest _ ih => exact List.subset_cons_of_subset c ih
  | case6 c rest _ ih => exact List.cons_subset_cons c ih

theorem beforeClosing_subset (closing text : List Char) : beforeClosing closing text ⊆ text := by
  induction text with
  | nil => exact List.Subset.refl _
  | cons c rest ih =>
      unfold beforeClosing
      split
      · exact List.nil_subset _
      · exact List.cons_subset_cons c ih

theorem plain_callText {text call : List Char} (h : Plain text)
    (hCall : callText? text = some call) : Plain call := by
  have hBehind := h.dropWhile isWordChar
  unfold callText? at hCall
  dsimp only at hCall
  split at hCall
  · cases hCall
  · split at hCall
    · next inner hInner =>
      obtain ⟨taken, hTaken, rfl⟩ := Option.map_eq_some_iff.mp hCall
      rw [hInner, Text.plain_cons] at hBehind
      have hPlain := plain_enclosed hBehind.2 hTaken
      simp [h.takeWhile, hPlain]
    · cases hCall

/-! The steps of the scanner. -/

/-- A step that finds plain tokens and leaves plain text. -/
def Scanned.Plain (s : Scanned) : Prop :=
  (∀ t ∈ s.tokens, t.Plain) ∧ Text.Plain s.cursor.rest

variable {file : String} {mode : ScanMode} {c : Cursor} {s : Scanned}

theorem plain_scanSingle (kind : TokenKind) {ch : Char} (h : Text.Plain c.rest) (hChar : ch ≠ '_') :
    (scanSingle file kind ch mode c).Plain := by
  refine ⟨?_, Cursor.plain_skip h 1⟩
  intro t ht
  rw [List.mem_singleton.mp ht]
  exact Token.plain_ofList (by simpa using hChar)

theorem plain_scanCut (kind : TokenKind) {value : List Char} (h : Text.Plain c.rest)
    (hValue : Text.Plain value) : (scanCut file kind value mode c).Plain :=
  ⟨List.forall_mem_singleton.mpr (Token.plain_ofList hValue), Cursor.plain_skip h _⟩

theorem plain_scanBlock {token : Token} {after : Cursor} (h : Text.Plain c.rest)
    (hBlock : scanBlock file mode c = .ok (token, after)) :
    token.Plain ∧ Text.Plain after.rest := by
  obtain ⟨taken, hTaken, hToken⟩ := scanBlock_eq_ok.mp hBlock
  cases hToken
  have hPlain := plain_enclosed (h.drop 1) hTaken
  exact ⟨Token.plain_ofList hPlain.dropLast, Cursor.plain_skip h _⟩

theorem plain_scanOptionalBlock {tokens : List Token} {after : Cursor} (h : Text.Plain c.rest)
    (hBlock : scanOptionalBlock file mode c = .ok (tokens, after)) :
    (∀ t ∈ tokens, t.Plain) ∧ Text.Plain after.rest := by
  have hRest := Cursor.plain_skipWhile h isSpace
  obtain ⟨rfl, rfl⟩ | ⟨token, rfl, -, hFound⟩ := scanOptionalBlock_cases hBlock
  · exact ⟨List.forall_mem_nil _, hRest⟩
  · obtain ⟨hToken, hLast⟩ := plain_scanBlock hRest hFound
    exact ⟨List.forall_mem_singleton.mpr hToken, hLast⟩

theorem plain_scanHead {keyword : Keyword} {kind : TokenKind} {token : Token} {after : Cursor}
    (h : Text.Plain c.rest) (hHead : scanHead file keyword kind c = .ok (token, after)) :
    token.Plain ∧ Text.Plain after.rest := by
  have hRest := Cursor.plain_skipWhile h isSpace
  obtain ⟨rest, taken, hText, hTaken, hToken⟩ := scanHead_eq_ok.mp hHead
  cases hToken
  have hPlain := plain_enclosed (Text.plain_cons.mp (hText ▸ hRest)).2 hTaken
  have hInner : Text.Plain ('(' :: dropSpaces none taken) :=
    Text.plain_cons.mpr ⟨by decide, hPlain.subset (dropSpaces_subset none taken)⟩
  exact ⟨Token.plain_ofList hInner, Cursor.plain_skip (Cursor.plain_skip hRest _) 0⟩

theorem plain_scanKeyword (file : String) (keyword : Keyword) (h : Text.Plain c.rest) :
    (scanKeyword file keyword c).1.Plain ∧ Text.Plain (scanKeyword file keyword c).2.rest :=
  ⟨Token.plain_ofList keyword.plain_text, Cursor.plain_skip h _⟩

theorem plain_scanWord (h : Text.Plain c.rest) : (scanWord file mode c).Plain :=
  ⟨List.forall_mem_singleton.mpr (Token.plain_ofList (h.takeWhile _)), Cursor.plain_skip h _⟩

/-- A step in plain text finds plain tokens and leaves plain text. -/
theorem plain_scanStep {ch : Char} (h : Text.Plain c.rest) (hHead : c.rest.head? = some ch)
    (hStep : scanStep file mode ch c = .ok s) : s.Plain := by
  cases stepped_of_scanStep hHead hStep with
  | single _ hHead => exact plain_scanSingle _ h (h.ne (List.mem_of_mem_head? hHead))
  | line | comment => exact ⟨List.forall_mem_nil _, Cursor.plain_skip h _⟩
  | word => exact plain_scanWord h
  | string _ hRest hTaken =>
      obtain ⟨hQuote, hBehind⟩ := Text.plain_cons.mp (hRest ▸ h)
      exact plain_scanCut _ h (Text.plain_cons.mpr ⟨hQuote, plain_closeQuote hBehind hTaken⟩)
  | tag _ hRest => exact plain_scanCut _ h (Text.plain_append.mp (hRest ▸ h)).1
  | raw _ hRest _ hFound hTexts =>
      -- the content stands behind the tag
      obtain ⟨hTag, hBehind⟩ := Text.plain_append.mp (hRest ▸ h)
      have hContent := hBehind.subset (hFound ▸ beforeClosing_subset _ _)
      refine ⟨List.forall_mem_cons.mpr ⟨Token.plain_ofList hTag, ?_⟩,
        Cursor.plain_skip (Cursor.plain_skip h _) _⟩
      rw [hTexts]
      split
      · exact List.forall_mem_nil _
      · exact (plain_scanCut _ (Cursor.plain_skip h _) hContent).1
  | reference hRest hTaken =>
      have hInner : Text.Plain ('@' :: '(' :: _) := hRest ▸ h
      refine plain_scanCut _ h ?_
      simp only [Text.plain_cons] at hInner ⊢
      exact ⟨hInner.1, hInner.2.1, plain_enclosed hInner.2.2 hTaken⟩
  | headed _ _ hFound hBlock =>
      obtain ⟨hWord, hBehind⟩ := plain_scanKeyword file _ h
      obtain ⟨hHead, hMiddle⟩ := plain_scanHead hBehind hFound
      obtain ⟨hTokens, hLast⟩ := plain_scanOptionalBlock hMiddle hBlock
      exact ⟨List.forall_mem_cons.mpr ⟨hWord, List.forall_mem_cons.mpr ⟨hHead, hTokens⟩⟩, hLast⟩
  | alternative _ hBlock =>
      obtain ⟨hWord, hBehind⟩ := plain_scanKeyword file .elseBranch h
      obtain ⟨hTokens, hLast⟩ := plain_scanOptionalBlock hBehind hBlock
      exact ⟨List.forall_mem_cons.mpr ⟨hWord, hTokens⟩, hLast⟩
  | call hRest hCall =>
      obtain ⟨hSigil, hBehind⟩ := Text.plain_cons.mp (hRest ▸ h)
      exact plain_scanCut _ h (Text.plain_cons.mpr ⟨hSigil, plain_callText hBehind hCall⟩)
  | sigil => exact plain_scanSingle _ h (by decide)
  | block _ _ hBlock =>
      obtain ⟨hToken, hLast⟩ := plain_scanBlock h hBlock
      exact ⟨List.forall_mem_singleton.mpr hToken, hLast⟩

/-- All tokens of plain text are plain. -/
theorem plain_scanFrom {tokens : List Token} (h : Text.Plain c.rest)
    (hScan : scanFrom file mode c = .ok tokens) : ∀ t ∈ tokens, t.Plain := by
  refine scanFrom_induction
    (motive := fun _ c tokens => Text.Plain c.rest → ∀ t ∈ tokens, t.Plain)
    (fun _ _ _ _ => List.forall_mem_nil _) ?_ hScan h
  intro mode c ch s rest hHead hStep _ ih hRest
  obtain ⟨hTokens, hLeft⟩ := plain_scanStep hRest hHead hStep
  exact List.forall_mem_append.mpr ⟨hTokens, ih hLeft⟩

end Source

/-- So are the tokens of a plain template or piece of markup. -/
theorem Token.plain_scan {mode : ScanMode} {source file : String} {tokens : List Token}
    (h : Text.Plain source.toList) (hScan : Token.scan mode source file = .ok tokens) :
    ∀ t ∈ tokens, t.Plain :=
  Source.plain_scanFrom (c := .start source.toList) h hScan

end HtmlTemplate
