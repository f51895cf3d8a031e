import HtmlTemplate.Proofs.Source.Modes

/-! The pieces of a source text. A step of the scanner takes pieces off the front of the
text: what a token covers, what belongs to a control word without being covered by its
tokens, and comments. Put together again the pieces are the text, so nothing is lost and
nothing is read twice. -/
namespace HtmlTemplate

namespace Cursor

variable {c : Cursor} {text behind : List Char}

theorem rest_skip_length (h : c.rest = text ++ behind) : (c.skip text.length).rest = behind := by
  simp [rest_skip, h]

theorem rest_skipWhile (c : Cursor) (p : Char → Bool) :
    (c.skipWhile p).rest = c.rest.dropWhile p :=
  rest_skip_length List.takeWhile_append_dropWhile.symm

theorem offset_advance (hSome : c.rest ≠ []) : c.advance.offset = c.offset + 1 := by
  obtain ⟨rest, offset, line, column⟩ := c
  match rest with
  | [] => exact absurd rfl hSome
  | [_] => rfl
  | _ :: next :: _ => by_cases hLine : next = '\n' <;> simp [advance, hLine]

theorem advance_nil (hNone : c.rest = []) : c.advance = c := by
  obtain ⟨rest, offset, line, column⟩ := c
  subst hNone
  rfl

theorem offset_skip (c : Cursor) (n : Nat) :
    (c.skip n).offset = c.offset + min n c.rest.length := by
  induction n generalizing c with
  | zero => simp [skip]
  | succ n ih =>
      rw [skip, ih, rest_advance, List.length_tail]
      cases hRest : c.rest with
      | nil => simp [advance_nil hRest]
      | cons first rest =>
          have hFirst : c.advance.offset = c.offset + 1 := offset_advance (by simp [hRest])
          simp only [hFirst, List.length_cons]
          omega

theorem offset_skip_length (h : c.rest = text ++ behind) :
    (c.skip text.length).offset = c.offset + text.length := by
  rw [offset_skip, h, List.length_append]
  omega

theorem skip_add (c : Cursor) (m n : Nat) : c.skip (m + n) = (c.skip m).skip n := by
  induction m generalizing c with
  | zero => simp [skip]
  | succ m ih => rw [Nat.succ_add, skip, ih, skip]

end Cursor

/-- A part of a source text: what one token covers, together with the text in front of
that token or behind it that no token covers, or a comment. -/
inductive Piece where
  | copied (t : Token)
  | block (t : Token)
  | control (t : Token) (blanks : List Char)
  | head (text : List Char) (t : Token) (blanks : List Char)
  | comment (text : List Char)
  | line (text : List Char)

namespace Piece

/-- The token of a piece. Comments have none. -/
def token? : Piece → Option Token
  | copied t | block t | control t _ | head _ t _ => some t
  | comment _ | line _ => none

/-- How a piece is written. -/
def text : Piece → List Char
  | copied t => t.value.toList
  | block t => '\x7b' :: t.value.toList ++ ['\x7d']
  | control t blanks => t.value.toList ++ blanks
  | head text _ blanks => text ++ blanks
  | comment text | line text => text

/-- The mode of the scanner behind a piece. -/
def modeAfter (mode : ScanMode) : Piece → ScanMode
  | copied t => if t.kind = .keyword .serve then .markup else mode
  | _ => mode

end Piece

/-- A kind of token whose value is the text that it covers, the control words of markup
apart. -/
def TokenKind.IsCopied : TokenKind → Prop
  | .condition | .each | .block => False
  | .keyword k => k.isControl = false
  | _ => True

theorem TokenKind.IsSingle.isCopied {kind : TokenKind} (h : kind.IsSingle) : kind.IsCopied := by
  cases kind <;> trivial

/-- A text in parentheses: the last character closes what the first one opens. -/
def Parenthesised (text : List Char) : Prop :=
  ∃ inner, text = '(' :: inner ++ [')'] ∧
    Source.enclosed? Source.parens 0 none (inner ++ [')']) = some (inner ++ [')'])

/-- A comment of markup, which ends where it is first closed. -/
def IsComment (text : List Char) : Prop :=
  ∃ inner, text = "<!--".toList ++ inner ++ "-->".toList ∧ ¬ "-->".toList <:+: inner

/-- A comment of setup statements, with its newline if there is one. -/
def IsLineComment (text behind : List Char) : Prop :=
  ∃ inner, '\n' ∉ inner ∧ (text = '#' :: inner ++ ['\n'] ∨ text = '#' :: inner ∧ behind = [])

/-- Whether a piece may stand at an offset, in a mode and in front of some text. -/
def Piece.Fits (mode : ScanMode) (offset : Nat) (behind : List Char) : Piece → Prop
  | copied t => t.kind.IsCopied ∧ t.value.toList ≠ [] ∧
      t.span.start = offset ∧ t.span.stop = offset + t.value.toList.length
  | block t => t.kind = .block ∧
      t.span.start = offset ∧ t.span.stop = offset + (t.value.toList.length + 2)
  | control t blanks => (∃ k, t.kind = .keyword k ∧ k.isControl = true) ∧
      blanks.all Source.isSpace = true ∧
      t.span.start = offset ∧ t.span.stop = offset + t.value.toList.length
  | head text t blanks => (t.kind = .condition ∨ t.kind = .each) ∧ Parenthesised text ∧
      t.value.toList = Source.dropSpaces none text ∧ blanks.all Source.isSpace = true ∧
      t.span.start = offset + text.length ∧ t.span.stop = offset + text.length
  | comment text => mode = .markup ∧ IsComment text
  | line text => mode = .setup ∧ IsLineComment text behind

/-- The text that some pieces are written as. -/
def piecesText (pieces : List Piece) : List Char :=
  pieces.flatMap Piece.text

/-- The tokens of some pieces. -/
def piecesTokens (pieces : List Piece) : List Token :=
  pieces.filterMap Piece.token?

/-- Whether pieces may stand side by side from an offset on, in front of some text. -/
def Laid (mode : ScanMode) (offset : Nat) (behind : List Char) : List Piece → Prop
  | [] => True
  | p :: rest => p.Fits mode offset (piecesText rest ++ behind) ∧
      Laid (p.modeAfter mode) (offset + p.text.length) behind rest

/-- The mode of the scanner behind some pieces. -/
def modeBehind (mode : ScanMode) (pieces : List Piece) : ScanMode :=
  pieces.foldl Piece.modeAfter mode

section

variable {mode : ScanMode} {offset : Nat} {behind : List Char} {pieces rest : List Piece}

@[simp] theorem piecesText_nil : piecesText [] = [] := rfl

@[simp] theorem piecesText_cons (p : Piece) (rest : List Piece) :
    piecesText (p :: rest) = p.text ++ piecesText rest := rfl

@[simp] theorem piecesText_append (pieces rest : List Piece) :
    piecesText (pieces ++ rest) = piecesText pieces ++ piecesText rest :=
  List.flatMap_append

@[simp] theorem piecesTokens_append (pieces rest : List Piece) :
    piecesTokens (pieces ++ rest) = piecesTokens pieces ++ piecesTokens rest :=
  List.filterMap_append

theorem laid_append : Laid mode offset behind (pieces ++ rest) ↔
    Laid mode offset (piecesText rest ++ behind) pieces ∧
      Laid (modeBehind mode pieces) (offset + (piecesText pieces).length) behind rest := by
  induction pieces generalizing mode offset with
  | nil => simp [Laid, modeBehind]
  | cons p pieces ih =>
      simp only [List.cons_append, Laid, ih, piecesText_append, piecesText_cons, List.append_assoc,
        List.length_append, Nat.add_assoc, and_assoc, modeBehind, List.foldl_cons]

end

/-- Pieces that a token covers, and comments. In markup every step takes one of these, or
comes upon a control word. -/
def Piece.IsPlain : Piece → Prop
  | copied _ | comment _ => True
  | _ => False

/-- Whether no token is a keyword. -/
def NoKeyword (tokens : List Token) : Prop :=
  ∀ t ∈ tokens, ∀ k, t.kind ≠ .keyword k

namespace Source

/-- What the scanner takes off the front of the text: the pieces, put together, are the
characters between the two places of the cursor. -/
structure Takes (mode : ScanMode) (c : Cursor) (s : Scanned) (pieces : List Piece) : Prop where
  laid : Laid mode c.offset s.cursor.rest pieces
  tokens_eq : piecesTokens pieces = s.tokens
  rest_eq : c.rest = piecesText pieces ++ s.cursor.rest
  offset_eq : s.cursor.offset = c.offset + (piecesText pieces).length
  mode_eq : s.mode = modeBehind mode pieces

variable {file : String} {mode : ScanMode} {c : Cursor} {s t : Scanned}

theorem takes_nil (mode : ScanMode) (c : Cursor) : Takes mode c ⟨[], mode, c⟩ [] :=
  ⟨trivial, rfl, rfl, rfl, rfl⟩

/-- One piece is taken by moving past its text. -/
theorem takes_piece {p : Piece} {behind : List Char} (hRest : c.rest = p.text ++ behind)
    (hFits : p.Fits mode c.offset behind) :
    Takes mode c ⟨p.token?.toList, p.modeAfter mode, c.skip p.text.length⟩ [p] := by
  have hBehind := Cursor.rest_skip_length hRest
  constructor
  · simpa [Laid, hBehind] using hFits
  · cases hToken : p.token? <;> simp [piecesTokens, hToken]
  · simpa [hBehind] using hRest
  · simpa using Cursor.offset_skip_length hRest
  · rfl

theorem Takes.append {first rest : List Piece} (h : Takes mode c s first)
    (hNext : Takes s.mode s.cursor t rest) :
    Takes mode c ⟨s.tokens ++ t.tokens, t.mode, t.cursor⟩ (first ++ rest) := by
  constructor
  · rw [laid_append, ← h.mode_eq, ← h.offset_eq, ← hNext.rest_eq]
    exact ⟨h.laid, hNext.laid⟩
  · simp [h.tokens_eq, hNext.tokens_eq]
  · simp [h.rest_eq, hNext.rest_eq]
  · simp [hNext.offset_eq, h.offset_eq, Nat.add_assoc]
  · rw [hNext.mode_eq, h.mode_eq, modeBehind, modeBehind, modeBehind, List.foldl_append]

/-- A token over the characters in front, wherever it is placed. -/
theorem takes_token (file : String) (mode : ScanMode) (kind : TokenKind) (hKind : kind.IsCopied)
    {value behind : List Char} (hRest : c.rest = value ++ behind) (hSome : value ≠ [])
    (line column : Nat) :
    Takes mode c
      ⟨[⟨kind, String.ofList value, ⟨c.offset, (c.skip value.length).offset, line, column⟩, file⟩],
        if kind = .keyword .serve then .markup else mode, c.skip value.length⟩
      [.copied
        ⟨kind, String.ofList value, ⟨c.offset, (c.skip value.length).offset, line, column⟩, file⟩] := by
  have hStop := Cursor.offset_skip_length hRest
  have hTaken : Takes mode c _ [.copied
      ⟨kind, String.ofList value, ⟨c.offset, (c.skip value.length).offset, line, column⟩, file⟩] :=
    takes_piece (by simpa [Piece.text] using hRest)
      ⟨hKind, by simpa using hSome, rfl, by simpa using hStop⟩
  simpa [Piece.token?, Piece.modeAfter, Piece.text] using hTaken

/-- A token that stays in its mode, placed where it ends. -/
theorem takes_cut (file : String) (mode : ScanMode) (kind : TokenKind) (hKind : kind.IsCopied)
    (hServe : kind ≠ .keyword .serve) {value behind : List Char} (hRest : c.rest = value ++ behind)
    (hSome : value ≠ []) :
    Takes mode c (scanCut file kind value mode c)
      [.copied (c.token file kind value value.length).1] := by
  have hTaken := takes_token file mode kind hKind hRest hSome (c.skip value.length).line
    (c.skip value.length).column
  rwa [if_neg hServe] at hTaken

/-- A character that is a token of its own. -/
theorem takes_single (file : String) (kind : TokenKind) (hKind : kind.IsCopied)
    (hServe : kind ≠ .keyword .serve) {ch : Char} (hHead : c.rest.head? = some ch)
    (mode : ScanMode) :
    ∃ t, Takes mode c (scanSingle file kind ch mode c) [.copied t] := by
  obtain ⟨rest, hRest⟩ := List.head?_eq_some_iff.mp hHead
  have hChar : c.rest = [ch] ++ rest := hRest
  have hTaken := takes_token file mode kind hKind hChar (List.cons_ne_nil _ _) c.line c.column
  rw [if_neg hServe] at hTaken
  exact ⟨_, hTaken⟩

theorem takes_word {ch : Char} (hHead : c.rest.head? = some ch) (hWord : isWordChar ch = true)
    (mode : ScanMode) : ∃ t, Takes mode c (scanWord file mode c) [.copied t] := by
  have hSome : c.rest.takeWhile isWordChar ≠ [] := by
    obtain ⟨rest, hRest⟩ := List.head?_eq_some_iff.mp hHead
    simp [hRest, hWord]
  have hRest : c.rest = c.rest.takeWhile isWordChar ++ c.rest.dropWhile isWordChar :=
    List.takeWhile_append_dropWhile.symm
  simp only [scanWord, Cursor.token]
  cases mode with
  | markup => exact ⟨_, takes_token file .markup .text trivial hRest hSome _ _⟩
  | setup =>
      simp only [↓reduceIte]
      cases hWord : Keyword.ofWord? (String.ofList (c.rest.takeWhile isWordChar)) with
      | none => exact ⟨_, takes_token file .setup .text trivial hRest hSome _ _⟩
      | some k =>
          have hTaken := takes_token file .setup (.keyword k)
            (Keyword.isControl_of_ofWord? hWord) hRest hSome
          simp only [TokenKind.keyword.injEq] at hTaken
          simp only [Option.some.injEq]
          exact ⟨_, hTaken _ _⟩

/-- A line comment with its newline, if there is one. -/
theorem takes_line (hHead : c.rest.head? = some '#') :
    ∃ text, Takes .setup c
      ⟨[], .setup, c.skip ((c.rest.takeWhile (· ≠ '\n')).length + 1)⟩ [.line text] := by
  obtain ⟨rest, hRest⟩ := List.head?_eq_some_iff.mp hHead
  let inner := rest.takeWhile (· ≠ '\n')
  have hInner : '\n' ∉ inner := by
    intro hMem
    simpa using List.all_eq_true.mp List.all_takeWhile '\n' hMem
  have hLine : c.rest.takeWhile (· ≠ '\n') = '#' :: inner := by simp [hRest, inner]
  have hSplit : c.rest = '#' :: inner ++ rest.dropWhile (· ≠ '\n') := by
    rw [hRest, List.cons_append, List.takeWhile_append_dropWhile]
  rw [hLine]
  cases hBehind : rest.dropWhile (· ≠ '\n') with
  | nil =>
      -- the text ends with the comment, so that the last move does nothing
      have hEnd : (c.skip ('#' :: inner).length).rest = [] :=
        Cursor.rest_skip_length (hBehind ▸ hSplit)
      have hTaken : Takes .setup c _ [.line ('#' :: inner)] :=
        takes_piece (hBehind ▸ hSplit) ⟨rfl, inner, hInner, .inr ⟨rfl, rfl⟩⟩
      rw [Cursor.skip_add, Cursor.skip, Cursor.skip, Cursor.advance_nil hEnd]
      exact ⟨_, hTaken⟩
  | cons newline behind =>
      have hNewline : newline = '\n' := by simpa using of_dropWhile_eq_cons hBehind
      subst hNewline
      have hText : c.rest = ('#' :: inner ++ ['\n']) ++ behind := by
        rw [hSplit, hBehind, List.append_assoc]
        rfl
      have hTaken : Takes .setup c _ [.line ('#' :: inner ++ ['\n'])] :=
        takes_piece hText ⟨rfl, inner, hInner, .inl rfl⟩
      rw [Piece.text, List.length_append, List.length_singleton] at hTaken
      exact ⟨_, hTaken⟩

theorem not_infix_of_splitFirst? {part text before behind : List Char} (hPart : part ≠ [])
    (h : Text.splitFirst? part text = some (before, behind)) : ¬ part <:+: before := by
  induction text generalizing before with
  | nil =>
      simp only [Text.splitFirst?, Option.map_eq_some_iff, Prod.mk.injEq] at h
      obtain ⟨rest, -, rfl, -⟩ := h
      simpa using hPart
  | cons first text ih =>
      unfold Text.splitFirst? at h
      split at h
      · cases h
        simpa using hPart
      · next hFirst =>
        simp only [Option.map_eq_some_iff, Prod.mk.injEq] at h
        obtain ⟨⟨inner, rest⟩, hInner, rfl, rfl⟩ := h
        intro hInfix
        rcases List.infix_cons_iff.mp hInfix with hHere | hLater
        · -- the part would stand at the very front of the text
          obtain ⟨tail, hTail⟩ := hHere
          have hText : first :: text = part ++ (tail ++ (part ++ rest)) := by
            rw [Text.splitFirst?_eq_some hInner, ← List.cons_append, ← hTail, List.append_assoc]
          rw [hText, Text.dropPrefix?_append] at hFirst
          cases hFirst
        · exact ih hInner hLater

theorem takes_comment {rest before behind : List Char} (hRest : c.rest = "<!--".toList ++ rest)
    (hFound : Text.splitFirst? "-->".toList rest = some (before, behind)) :
    Takes .markup c ⟨[], .markup, c.skip (before.length + 7)⟩
      [.comment ("<!--".toList ++ before ++ "-->".toList)] := by
  have hText : c.rest = ("<!--".toList ++ before ++ "-->".toList) ++ behind := by
    rw [hRest, Text.splitFirst?_eq_some hFound]
    simp
  have hTaken : Takes .markup c _ [.comment ("<!--".toList ++ before ++ "-->".toList)] :=
    takes_piece hText ⟨rfl, before, rfl, not_infix_of_splitFirst? (by simp) hFound⟩
  have hLength : ("<!--".toList ++ before ++ "-->".toList).length = before.length + 7 := by
    simp
  rwa [Piece.text, hLength] at hTaken

theorem beforeClosing_prefix (closing text : List Char) : beforeClosing closing text <+: text := by
  fun_induction beforeClosing closing text with
  | case1 => exact List.prefix_rfl
  | case2 => exact List.nil_prefix
  | case3 c rest _ ih => exact List.prefix_cons_inj c |>.mpr ih

theorem classifyTag_isCopied (tag : List Char) : (classifyTag tag).IsCopied := by
  rcases classifyTag_cases tag with h | h | h | h <;> rw [h] <;> trivial

theorem takes_tag (file : String) (mode : ScanMode) {tag behind : List Char}
    (hTag : ∃ inner, tag = '<' :: (inner ++ ['>']) ∧ '>' ∉ inner) (hRest : c.rest = tag ++ behind) :
    Takes mode c (scanCut file (classifyTag tag) tag mode c)
      [.copied (c.token file (classifyTag tag) tag tag.length).1] := by
  obtain ⟨inner, rfl, -⟩ := hTag
  exact takes_cut file mode _ (classifyTag_isCopied _) (classifyTag_ne _ .serve) hRest
    (List.cons_ne_nil _ _)

theorem enclosed?_last {b : Brackets} {depth : Nat} {quote : Option Char} {text taken : List Char}
    (h : enclosed? b depth quote text = some taken) : [b.closing] <:+ taken := by
  fun_induction enclosed? b depth quote text generalizing taken <;>
    grind [Option.map_eq_some_iff, List.suffix_cons_iff]

/-- What is found up to the closing bracket is found again in front of any other text. -/
theorem enclosed?_append {b : Brackets} {depth : Nat} {quote : Option Char}
    {text taken : List Char} (h : enclosed? b depth quote text = some taken) (behind : List Char) :
    enclosed? b depth quote (taken ++ behind) = some taken := by
  fun_induction enclosed? b depth quote text generalizing taken
  case case1 | case2 => cases h
  case case7 =>
    cases h
    simp [enclosed?, *]
  all_goals
    obtain ⟨rest, hRest, rfl⟩ := Option.map_eq_some_iff.mp h
    rw [List.cons_append, enclosed?.eq_def]
    simp_all

theorem parenthesised_of_enclosed? {text taken : List Char}
    (h : enclosed? parens 0 none text = some taken) : Parenthesised ('(' :: taken) := by
  have hAgain := enclosed?_append h []
  obtain ⟨inner, rfl⟩ := enclosed?_last h
  rw [List.append_nil] at hAgain
  exact ⟨inner, rfl, hAgain⟩

/-- A block with its braces. -/
theorem takes_block {token : Token} {after : Cursor} (hHead : c.rest.head? = some '\x7b')
    (h : scanBlock file mode c = .ok (token, after)) :
    Takes mode c ⟨[token], mode, after⟩ [.block token] := by
  obtain ⟨rest, hRest⟩ := List.head?_eq_some_iff.mp hHead
  obtain ⟨taken, hTaken, hToken⟩ := scanBlock_eq_ok.mp h
  rw [hRest, List.drop_succ_cons, List.drop_zero] at hTaken
  obtain ⟨behind, rfl⟩ := enclosed?_prefix hTaken
  obtain ⟨inner, rfl⟩ := enclosed?_last hTaken
  rw [List.dropLast_concat] at hToken
  cases hToken
  let token : Token := ⟨.block, String.ofList inner,
    ⟨c.offset, (c.skip (inner.length + 2)).offset, (c.skip (inner.length + 2)).line,
      (c.skip (inner.length + 2)).column⟩, file⟩
  have hText : c.rest = Piece.text (.block token) ++ behind := by
    simp [hRest, Piece.text, token, braces]
  have hStop := Cursor.offset_skip_length hText
  have hLength : (Piece.text (.block token)).length = inner.length + 2 := by
    simp [Piece.text, token]
  have hPiece : Takes mode c _ [.block token] :=
    takes_piece hText ⟨rfl, rfl, by simpa [hLength, token] using hStop⟩
  simpa [hLength, Piece.token?, Piece.modeAfter, token] using hPiece

/-- The block that may follow. The blanks before it belong to what it follows. -/
theorem takes_optionalBlock {tokens : List Token} {after : Cursor}
    (h : scanOptionalBlock file mode c = .ok (tokens, after)) :
    ∃ pieces, Takes mode (c.skipWhile isSpace) ⟨tokens, mode, after⟩ pieces := by
  obtain ⟨rfl, rfl⟩ | ⟨token, rfl, hHead, hBlock⟩ := scanOptionalBlock_cases h
  · exact ⟨[], takes_nil mode _⟩
  · exact ⟨_, takes_block hHead hBlock⟩

/-- A control word with the blanks behind it. -/
theorem takes_keyword (file : String) (mode : ScanMode) {keyword : Keyword}
    {behind : List Char} (hControl : keyword.isControl = true)
    (hRest : c.rest = keyword.text.toList ++ behind) :
    ∃ p, Takes mode c ⟨[(scanKeyword file keyword c).1], mode,
      (scanKeyword file keyword c).2.skipWhile isSpace⟩ [p] := by
  have hBehind := Cursor.rest_skip_length hRest
  have hStop := Cursor.offset_skip_length hRest
  rw [String.length_toList] at hBehind hStop
  let word := (scanKeyword file keyword c).1
  let blanks := behind.takeWhile isSpace
  have hValue : word.value.toList = keyword.text.toList := by
    simp [word, scanKeyword, Cursor.tokenHere]
  have hText : c.rest = Piece.text (.control word blanks) ++ behind.dropWhile isSpace := by
    simp [hRest, Piece.text, hValue, blanks]
  have hTaken : Takes mode c _ [.control word blanks] :=
    takes_piece hText ⟨⟨keyword, rfl, hControl⟩, List.all_takeWhile, rfl, by
      rw [hValue, String.length_toList, ← hStop]
      rfl⟩
  rw [Piece.text, List.length_append, Cursor.skip_add, hValue, String.length_toList] at hTaken
  have hAfter : (scanKeyword file keyword c).2.skipWhile isSpace =
      (c.skip keyword.text.length).skip blanks.length := by
    simp only [scanKeyword, Cursor.tokenHere, Cursor.skipWhile, hBehind, blanks]
  rw [hAfter]
  exact ⟨_, hTaken⟩

theorem takes_head {keyword : Keyword} {kind : TokenKind} {token : Token} {after : Cursor}
    (hKind : kind = .condition ∨ kind = .each)
    (h : scanHead file keyword kind c = .ok (token, after)) :
    ∃ p, Takes mode (c.skipWhile isSpace) ⟨[token], mode, after.skipWhile isSpace⟩ [p] := by
  obtain ⟨rest, taken, hRest, hTaken, hToken⟩ := scanHead_eq_ok.mp h
  generalize c.skipWhile isSpace = start at hRest hToken ⊢
  obtain ⟨behind, rfl⟩ := enclosed?_prefix hTaken
  have hInner : start.rest = ('(' :: taken) ++ behind := hRest
  have hBehind := Cursor.rest_skip_length hInner
  have hStop := Cursor.offset_skip_length hInner
  rw [List.length_cons] at hBehind hStop
  cases hToken
  let blanks := behind.takeWhile isSpace
  let after := start.skip (taken.length + 1)
  let head : Token := ⟨kind, String.ofList ('(' :: dropSpaces none taken),
    ⟨after.offset, after.offset, after.line, after.column⟩, file⟩
  have hText : start.rest =
      Piece.text (.head ('(' :: taken) head blanks) ++ behind.dropWhile isSpace := by
    simp [hInner, Piece.text, blanks]
  have hPiece : Takes mode start _ [.head ('(' :: taken) head blanks] :=
    takes_piece hText ⟨hKind, parenthesised_of_enclosed? hTaken,
      by simp [head, dropSpaces, isSpace, isQuote], List.all_takeWhile, hStop, hStop⟩
  rw [Piece.text, List.length_append, Cursor.skip_add, List.length_cons] at hPiece
  have hAfter : (after.skip 0).skipWhile isSpace = after.skip blanks.length := by
    rw [Cursor.skip, Cursor.skipWhile, hBehind]
  exact ⟨_, hAfter ▸ hPiece⟩

theorem callText?_prefix {text call : List Char} (h : callText? text = some call) :
    call <+: text := by
  unfold callText? at h
  dsimp only at h
  split at h
  · cases h
  · split at h
    · next inner hInner =>
      obtain ⟨taken, hTaken, rfl⟩ := Option.map_eq_some_iff.mp h
      obtain ⟨behind, rfl⟩ := enclosed?_prefix hTaken
      refine ⟨behind, ?_⟩
      rw [List.append_assoc, List.cons_append, ← hInner, List.takeWhile_append_dropWhile]
    · cases h

/-- What one step takes. -/
theorem takes_step {ch : Char} (hHead : c.rest.head? = some ch)
    (h : scanStep file mode ch c = .ok s) :
    ∃ pieces, Takes mode c s pieces ∧
      (mode = .markup → NoKeyword s.tokens → ∀ p ∈ pieces, p.IsPlain) := by
  have hOne {s : Scanned} {p : Piece} (hTaken : Takes mode c s [p])
      (hPlain : mode = .markup → p.IsPlain) :
      ∃ pieces, Takes mode c s pieces ∧
        (mode = .markup → NoKeyword s.tokens → ∀ p ∈ pieces, p.IsPlain) :=
    ⟨_, hTaken, fun hMode _ => List.forall_mem_singleton.mpr (hPlain hMode)⟩
  cases stepped_of_scanStep hHead h with
  | single hKind hHead =>
      obtain ⟨t, hTaken⟩ := takes_single file _ hKind.isCopied (hKind.ne id) hHead mode
      exact hOne hTaken fun _ => trivial
  | line hMode hHead =>
      subst hMode
      obtain ⟨text, hTaken⟩ := takes_line hHead
      exact hOne hTaken nofun
  | comment hMode hRest hFound =>
      subst hMode
      exact hOne (takes_comment hRest hFound) fun _ => trivial
  | word hHead hWord =>
      obtain ⟨t, hTaken⟩ := takes_word hHead hWord mode
      exact hOne hTaken fun _ => trivial
  | string _ hRest hTaken =>
      obtain ⟨behind, rfl⟩ := closeQuote?_prefix hTaken
      exact hOne (takes_cut file mode .string trivial TokenKind.noConfusion hRest
        (List.cons_ne_nil _ _)) fun _ => trivial
  | tag hTag hRest => exact hOne (takes_tag file mode hTag hRest) fun _ => trivial
  | @raw tag behind content texts hTag hRest _ hFound hTexts =>
      have hWhole := takes_tag file mode hTag hRest
      have hBehind : (c.skip tag.length).rest = behind := Cursor.rest_skip_length hRest
      by_cases hEmpty : content = []
      · subst hTexts hEmpty
        exact hOne hWhole fun _ => trivial
      · rw [if_neg hEmpty] at hTexts
        subst hTexts
        obtain ⟨later, hContent⟩ :=
          beforeClosing_prefix ('<' :: '/' :: (tagName tag).map Char.toLower) behind
        rw [hFound, ← hBehind] at hContent
        have hText := takes_cut file mode .text trivial TokenKind.noConfusion hContent.symm
          hEmpty
        refine ⟨_, hWhole.append hText, fun _ _ => ?_⟩
        exact List.forall_mem_cons.mpr ⟨trivial, List.forall_mem_singleton.mpr trivial⟩
  | reference hRest hTaken =>
      obtain ⟨behind, rfl⟩ := enclosed?_prefix hTaken
      exact hOne (takes_cut file mode .reference trivial TokenKind.noConfusion hRest
        (List.cons_ne_nil _ _)) fun _ => trivial
  | @headed keyword kind _ _ _ _ _ hWord hRest hFound hBlock =>
      have hControl : keyword.isControl = true := by
        obtain ⟨rfl, -⟩ | ⟨rfl, -⟩ := hWord <;> rfl
      obtain ⟨front, hFront⟩ := takes_keyword file mode hControl hRest
      obtain ⟨head, hHead⟩ := takes_head (hWord.imp And.right And.right) hFound
      obtain ⟨pieces, hPieces⟩ := takes_optionalBlock hBlock
      exact ⟨_, (hFront.append hHead).append hPieces,
        fun _ hNone => absurd rfl (hNone _ List.mem_cons_self keyword)⟩
  | alternative hRest hBlock =>
      obtain ⟨front, hFront⟩ := takes_keyword file mode rfl hRest
      obtain ⟨pieces, hPieces⟩ := takes_optionalBlock hBlock
      exact ⟨_, hFront.append hPieces,
        fun _ hNone => absurd rfl (hNone _ List.mem_cons_self .elseBranch)⟩
  | call hRest hCall =>
      obtain ⟨behind, rfl⟩ := callText?_prefix hCall
      exact hOne (takes_cut file mode .call trivial TokenKind.noConfusion hRest
        (List.cons_ne_nil _ _)) fun _ => trivial
  | sigil hRest =>
      have hHead : c.rest.head? = some '@' := by rw [hRest]; rfl
      obtain ⟨t, hTaken⟩ := takes_single file .unknown trivial TokenKind.noConfusion hHead mode
      exact hOne hTaken fun _ => trivial
  | block hMode hHead hBlock => exact hOne (takes_block hHead hBlock) (by rw [hMode]; nofun)

/-- What a whole run of the scanner takes: all of the text. -/
theorem takes_all {tokens : List Token} (h : scanFrom file mode c = .ok tokens) :
    ∃ pieces, Laid mode c.offset [] pieces ∧ piecesTokens pieces = tokens ∧
      piecesText pieces = c.rest ∧
      (mode = .markup → NoKeyword tokens → ∀ p ∈ pieces, p.IsPlain) := by
  refine scanFrom_induction (motive := fun mode c tokens => ∃ pieces, Laid mode c.offset [] pieces ∧
      piecesTokens pieces = tokens ∧ piecesText pieces = c.rest ∧
      (mode = .markup → NoKeyword tokens → ∀ p ∈ pieces, p.IsPlain)) ?_ ?_ h
  · intro mode c hEnd
    have hNothing := List.head?_eq_none_iff.mp hEnd
    exact ⟨[], trivial, rfl, hNothing.symm, fun _ _ => List.forall_mem_nil _⟩
  · rintro mode c ch s tokens hHead hStep - ⟨rest, hLaid, hTokens, hText, hPlain⟩
    obtain ⟨pieces, hTaken, hFirst⟩ := takes_step hHead hStep
    refine ⟨pieces ++ rest, ?_, ?_, ?_, ?_⟩
    · rw [laid_append, hText, List.append_nil, ← hTaken.mode_eq, ← hTaken.offset_eq]
      exact ⟨hTaken.laid, hLaid⟩
    · rw [piecesTokens_append, hTaken.tokens_eq, hTokens]
    · rw [piecesText_append, hText, hTaken.rest_eq]
    · intro hMarkup hNone p hp
      have hMode : s.mode = .markup := by
        rcases scanStep_cases hHead hStep with ⟨hMode, -⟩ | ⟨hSetup, -⟩
        · exact hMode.trans hMarkup
        · cases hSetup.symm.trans hMarkup
      rcases List.mem_append.mp hp with hp | hp
      · exact hFirst hMarkup (fun t ht => hNone t (List.mem_append_left _ ht)) p hp
      · exact hPlain hMode (fun t ht => hNone t (List.mem_append_right _ ht)) p hp

end Source

end HtmlTemplate
