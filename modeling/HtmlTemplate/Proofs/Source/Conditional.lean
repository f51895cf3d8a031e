import HtmlTemplate.Proofs.Source.Brackets
import HtmlTemplate.Proofs.Source.Pieces

/-! How a branch is written in markup, and that the scanner reads it so: the parentheses
of the condition and the braces of the blocks close where they should, and the white
space behind `@if`, the condition and `@else` leaves no token. -/
namespace HtmlTemplate

/-- No brace of a text closes one outside of it or is left open. -/
def BracesBalanced (text : List Char) : Prop :=
  Balances (· = '\x7b') (· = '\x7d') 0 text

instance (text : List Char) : Decidable (BracesBalanced text) :=
  inferInstanceAs (Decidable (Balances _ _ _ _))

/-- The kind of a token and its text. -/
def Token.lexeme (t : Token) : TokenKind × String :=
  (t.kind, t.value)

/-- The end of a branch: the white space behind `@else`, and its block. -/
structure Alternative where
  blanks : List Char
  block : List Char

/-- A branch in markup: the white space behind `@if`, the condition between its
parentheses, the white space behind that, the block between its braces, the white space
behind that, and the alternative if there is one. -/
structure Conditional where
  blanks : List Char
  condition : List Char
  gap : List Char
  block : List Char
  trailing : List Char
  alternative? : Option Alternative

namespace Alternative

def text (a : Alternative) : List Char :=
  "@else".toList ++ (a.blanks ++ '\x7b' :: (a.block ++ ['\x7d']))

def lexemes (a : Alternative) : List (TokenKind × String) :=
  [(.keyword .elseBranch, "@else"), (.block, String.ofList a.block)]

structure WellFormed (a : Alternative) : Prop where
  blanks : a.blanks.all Source.isSpace = true
  block : BracesBalanced a.block

end Alternative

namespace Conditional

/-- A branch as it is written. -/
def text (k : Conditional) : List Char :=
  "@if".toList ++ (k.blanks ++ '(' :: (k.condition ++ ')' :: (k.gap ++ '\x7b' :: (k.block ++
    '\x7d' :: (k.trailing ++ (k.alternative?.map Alternative.text).getD [])))))

/-- The condition as its token holds it: in its parentheses, and without the white space
outside of quoted texts. -/
def value (k : Conditional) : String :=
  String.ofList ('(' :: Source.dropSpaces none (k.condition ++ [')']))

/-- What the scanner makes of a branch. -/
def lexemes (k : Conditional) : List (TokenKind × String) :=
  [(.keyword .ifBranch, "@if"), (.condition, k.value), (.block, String.ofList k.block)] ++
    (k.trailing.map fun ch => (.blank, String.ofList [ch])) ++
    (k.alternative?.map Alternative.lexemes).getD []

/-- The spacings are white space, the condition ends at its own closing parenthesis and
the braces of the blocks are balanced. -/
structure WellFormed (k : Conditional) : Prop where
  blanks : k.blanks.all Source.isSpace = true
  condition : Parenthesised ('(' :: k.condition ++ [')'])
  gap : k.gap.all Source.isSpace = true
  block : BracesBalanced k.block
  trailing : k.trailing.all Source.isSpace = true
  alternative : ∀ a, k.alternative? = some a → a.WellFormed

end Conditional

namespace Source

variable {file : String} {c after : Cursor} {blanks text behind : List Char}

/-- Braces that are balanced but for some open ones enclose a text up to the one that
closes the last of these. -/
theorem enclosed?_braces {depth : Nat}
    (hBalanced : Balances (· = '\x7b') (· = '\x7d') depth text) (behind : List Char) :
    enclosed? (braces .markup) depth none (text ++ '\x7d' :: behind) =
      some (text ++ ['\x7d']) := by
  have hQuoting : (braces .markup).quoting = false := rfl
  have hOpening : (braces .markup).opening = '\x7b' := rfl
  have hClosing : (braces .markup).closing = '\x7d' := rfl
  induction text generalizing depth with
  | nil =>
      obtain rfl := balances_nil_iff.mp hBalanced
      rfl
  | cons ch rest ih =>
      rw [List.cons_append, enclosed?.eq_def]
      simp only [hQuoting, hOpening, hClosing, Bool.false_and, Bool.false_eq_true, ↓reduceIte]
      by_cases hOpen : ch = '\x7b'
      · subst hOpen
        rw [if_pos rfl, ih ((balances_of_opens rfl rfl).mp hBalanced)]
        rfl
      · rw [if_neg hOpen]
        by_cases hClose : ch = '\x7d'
        · subst hClose
          rw [if_pos rfl]
          cases depth with
          | zero => exact absurd hBalanced (not_balances_of_closes rfl rfl)
          | succ depth =>
              dsimp only
              rw [ih ((balances_of_closes rfl rfl).mp hBalanced)]
              rfl
        · have hRest := (balances_of_neither (by simpa using hOpen) (by simpa using hClose)).mp
            hBalanced
          rw [if_neg hClose, ih hRest]
          rfl

theorem skipWhile_blanks (hBlanks : blanks.all isSpace = true)
    (hBehind : ∀ ch, behind.head? = some ch → isSpace ch = false)
    (hRest : c.rest = blanks ++ behind) : (c.skipWhile isSpace).rest = behind := by
  have hTaken : c.rest.takeWhile isSpace = blanks := by
    rw [hRest, List.takeWhile_append_of_pos (List.all_eq_true.mp hBlanks)]
    cases behind with
    | nil => simp
    | cons ch _ => simp [hBehind ch rfl]
  rw [Cursor.skipWhile, hTaken, Cursor.rest_skip_length hRest]

/-- A block of balanced braces is scanned as a whole. -/
theorem scanBlock_balanced (file : String) (hBalanced : BracesBalanced text)
    (hRest : c.rest = '\x7b' :: (text ++ '\x7d' :: behind)) :
    ∃ token after, scanBlock file .markup c = .ok (token, after) ∧
      token.lexeme = (.block, String.ofList text) ∧ after.rest = behind := by
  have hTaken := enclosed?_braces hBalanced behind
  have hSplit : c.rest = ('\x7b' :: (text ++ ['\x7d'])) ++ behind := by simp [hRest]
  have hBehind := Cursor.rest_skip_length hSplit
  unfold scanBlock
  rw [hRest, List.drop_one, List.tail_cons, hTaken]
  refine ⟨_, _, rfl, ?_, hBehind⟩
  rw [List.dropLast_concat]
  rfl

theorem scanOptionalBlock_balanced (file : String) (hBlanks : blanks.all isSpace = true)
    (hBalanced : BracesBalanced text)
    (hRest : c.rest = blanks ++ '\x7b' :: (text ++ '\x7d' :: behind)) :
    ∃ token after, scanOptionalBlock file .markup c = .ok ([token], after) ∧
      token.lexeme = (.block, String.ofList text) ∧ after.rest = behind := by
  have hSkipped := skipWhile_blanks hBlanks (by rintro ch h; cases h; rfl) hRest
  obtain ⟨token, after, hScanned, hLexeme, hAfter⟩ := scanBlock_balanced file hBalanced hSkipped
  refine ⟨token, after, ?_, hLexeme, hAfter⟩
  unfold scanOptionalBlock
  dsimp only
  rw [hSkipped, List.head?_cons, if_pos rfl, hScanned]
  rfl

theorem scanHead_parenthesised (file : String) (keyword : Keyword) (kind : TokenKind)
    (hBlanks : blanks.all isSpace = true) (hText : Parenthesised ('(' :: text ++ [')']))
    (hRest : c.rest = blanks ++ '(' :: (text ++ ')' :: behind)) :
    ∃ token after, scanHead file keyword kind c = .ok (token, after) ∧
      token.lexeme = (kind, String.ofList ('(' :: dropSpaces none (text ++ [')']))) ∧
      after.rest = behind := by
  have hSkipped := skipWhile_blanks hBlanks (by rintro ch h; cases h; rfl) hRest
  have hTaken : enclosed? parens 0 none (text ++ ')' :: behind) = some (text ++ [')']) := by
    obtain ⟨inner, hInner, hEnclosed⟩ := hText
    obtain rfl : text = inner := by simpa using hInner
    simpa using enclosed?_append hEnclosed behind
  have hSplit : (c.skipWhile isSpace).rest = ('(' :: (text ++ [')'])) ++ behind := by
    simp [hSkipped]
  have hBehind := Cursor.rest_skip_length hSplit
  unfold scanHead
  dsimp only
  rw [hSkipped, List.head?_cons, if_pos rfl, List.drop_one, List.tail_cons, hTaken]
  exact ⟨_, _, rfl, rfl, hBehind⟩

/-- A control word with its head and its block. -/
theorem scanHeaded_balanced (file : String) (keyword : Keyword) (kind : TokenKind)
    {head gap : List Char} (hBlanks : blanks.all isSpace = true)
    (hHead : Parenthesised ('(' :: head ++ [')'])) (hGap : gap.all isSpace = true)
    (hBalanced : BracesBalanced text)
    (hRest : c.rest = keyword.text.toList ++ (blanks ++ '(' :: (head ++ ')' :: (gap ++
      '\x7b' :: (text ++ '\x7d' :: behind))))) :
    ∃ tokens after, scanHeaded file keyword kind .markup c = .ok ⟨tokens, .markup, after⟩ ∧
      tokens.map Token.lexeme = [(.keyword keyword, keyword.text),
        (kind, String.ofList ('(' :: dropSpaces none (head ++ [')']))),
        (.block, String.ofList text)] ∧ after.rest = behind := by
  have hWord : (scanKeyword file keyword c).2.rest = _ := Cursor.rest_skip_length hRest
  obtain ⟨head, middle, hScanned, hLexeme, hMiddle⟩ :=
    scanHead_parenthesised file keyword kind hBlanks hHead hWord
  obtain ⟨block, after, hBlock, hBlockLexeme, hAfter⟩ :=
    scanOptionalBlock_balanced file hGap hBalanced hMiddle
  refine ⟨[(scanKeyword file keyword c).1, head, block], after, ?_, ?_, hAfter⟩
  · unfold scanHeaded
    dsimp only
    rw [hScanned]
    dsimp only [bind, Except.bind]
    rw [hBlock]
    rfl
  · have hWordLexeme : (scanKeyword file keyword c).1.lexeme = (.keyword keyword, keyword.text) :=
      congrArg (TokenKind.keyword keyword, ·) String.ofList_toList
    rw [List.map_cons, List.map_cons, List.map_singleton, hWordLexeme, hLexeme, hBlockLexeme]

/-- `@else` with its block. -/
theorem scanElse_balanced (file : String) {a : Alternative} (hAlternative : a.WellFormed)
    (hRest : c.rest = a.text ++ behind) :
    ∃ tokens after, scanElse file .markup c = .ok ⟨tokens, .markup, after⟩ ∧
      tokens.map Token.lexeme = a.lexemes ∧ after.rest = behind := by
  have hSplit :
      c.rest = "@else".toList ++ (a.blanks ++ '\x7b' :: (a.block ++ '\x7d' :: behind)) := by
    simp [hRest, Alternative.text]
  have hWord : (scanKeyword file .elseBranch c).2.rest = _ := Cursor.rest_skip_length hSplit
  obtain ⟨block, after, hBlock, hLexeme, hAfter⟩ :=
    scanOptionalBlock_balanced file hAlternative.blanks hAlternative.block hWord
  refine ⟨[(scanKeyword file .elseBranch c).1, block], after, ?_, ?_, hAfter⟩
  · unfold scanElse
    dsimp only
    rw [hBlock]
    rfl
  · rw [List.map_cons, List.map_singleton, hLexeme]
    rfl

/-- Scanning markup from one place gives some tokens and goes on at another. -/
def ScansTo (file : String) (c : Cursor) (tokens : List Token) (after : Cursor) : Prop :=
  scanFrom file .markup c = (scanFrom file .markup after).map (tokens ++ ·)

theorem ScansTo.refl (file : String) (c : Cursor) : ScansTo file c [] c := by
  unfold ScansTo
  cases scanFrom file .markup c <;> rfl

theorem ScansTo.trans {first second : List Token} {middle : Cursor}
    (h : ScansTo file c first middle) (hNext : ScansTo file middle second after) :
    ScansTo file c (first ++ second) after := by
  unfold ScansTo at h hNext ⊢
  rw [h, hNext, map_append_map]

theorem scansTo_of_step {ch : Char} {tokens : List Token} (hHead : c.rest.head? = some ch)
    (h : scanStep file .markup ch c = .ok ⟨tokens, .markup, after⟩) :
    ScansTo file c tokens after :=
  scanFrom_of_step hHead h

theorem scanFrom_end (file : String) (mode : ScanMode) (h : c.rest = []) :
    scanFrom file mode c = .ok [] := by
  rw [scanFrom]
  split
  · rfl
  · next hHead =>
    rw [h] at hHead
    cases hHead

theorem ScansTo.scanFrom_eq {tokens : List Token} (h : ScansTo file c tokens after)
    (hEnd : after.rest = []) : scanFrom file .markup c = .ok tokens := by
  rw [h, scanFrom_end file .markup hEnd]
  exact congrArg Except.ok (List.append_nil tokens)

/-- White space is scanned character by character. -/
theorem scansTo_blanks (file : String) (hBlanks : blanks.all isSpace = true)
    (hRest : c.rest = blanks ++ behind) :
    ∃ tokens after, ScansTo file c tokens after ∧
      tokens.map Token.lexeme = blanks.map (fun ch => (.blank, String.ofList [ch])) ∧
      after.rest = behind := by
  induction blanks generalizing c with
  | nil => exact ⟨[], c, .refl file c, rfl, hRest⟩
  | cons ch rest ih =>
      simp only [List.all_cons, Bool.and_eq_true] at hBlanks
      obtain ⟨hBlank, hOthers⟩ := hBlanks
      have hStep : scanStep file .markup ch c = .ok (scanSingle file .blank ch .markup c) := by
        unfold scanStep
        rw [if_pos hBlank]
      have hNext : (c.skip 1).rest = rest ++ behind := by
        rw [Cursor.rest_skip, hRest]
        rfl
      obtain ⟨tokens, after, hScans, hLexemes, hAfter⟩ := ih hOthers hNext
      refine ⟨_, after, (scansTo_of_step (by rw [hRest]; rfl) hStep).trans hScans, ?_, hAfter⟩
      rw [List.map_append, hLexemes]
      rfl

/-- In front of a text that begins with `@` the scanner looks for what that begins. -/
theorem scanStep_at (file : String) (c : Cursor) (hHead : c.rest.head? = some '@') :
    scanStep file .markup '@' c = scanAt file .markup c := by
  obtain ⟨rest, hRest⟩ := List.head?_eq_some_iff.mp hHead
  unfold scanStep
  rw [hRest]
  rfl

theorem isWordChar_of_isSpace {ch : Char} (h : isSpace ch = true) : isWordChar ch = false := by
  simp only [isSpace, Bool.or_eq_true, beq_iff_eq, or_assoc] at h
  rcases h with rfl | rfl | rfl | rfl | rfl | rfl <;> rfl

/-- A control word is recognised by the white space or the bracket behind it. -/
theorem atControlWord_blanks (word : String) {first : Char} (hBlanks : blanks.all isSpace = true)
    (hFirst : isWordChar first = false) :
    atControlWord word (word.toList ++ (blanks ++ first :: behind)) = true := by
  unfold atControlWord
  rw [Text.dropPrefix?_append]
  cases blanks with
  | nil => simp [hFirst]
  | cons ch rest =>
      have hBlank := List.all_eq_true.mp hBlanks ch List.mem_cons_self
      simp [isWordChar_of_isSpace hBlank]

theorem scansTo_alternative (file : String) {a : Alternative} (hAlternative : a.WellFormed)
    (hRest : c.rest = a.text ++ behind) :
    ∃ tokens after, ScansTo file c tokens after ∧ tokens.map Token.lexeme = a.lexemes ∧
      after.rest = behind := by
  obtain ⟨tokens, after, hElse, hLexemes, hAfter⟩ := scanElse_balanced file hAlternative hRest
  have hHead : c.rest.head? = some '@' := by rw [hRest]; rfl
  refine ⟨tokens, after, scansTo_of_step hHead ?_, hLexemes, hAfter⟩
  have hWord : atControlWord "else" (c.rest.drop 1) = true := by
    have hDrop : c.rest.drop 1 = "else".toList ++ (a.blanks ++ '\x7b' :: (a.block ++ '\x7d' ::
        behind)) := by
      simp [hRest, Alternative.text]
    rw [hDrop]
    exact atControlWord_blanks "else" hAlternative.blanks rfl
  have hOther : atControlWord "if" (c.rest.drop 1) = false := by rw [hRest]; rfl
  have hParen : (c.rest.drop 1).head? ≠ some '(' := by rw [hRest]; exact nofun
  rw [scanStep_at file c hHead]
  unfold scanAt
  dsimp only
  rw [if_neg hParen, if_neg (Bool.eq_false_iff.mp hOther), if_pos hWord, hElse]

theorem scansTo_headed (file : String) {k : Conditional} (hWellFormed : k.WellFormed)
    (hRest : c.rest = "@if".toList ++ (k.blanks ++ '(' :: (k.condition ++ ')' :: (k.gap ++
      '\x7b' :: (k.block ++ '\x7d' :: behind))))) :
    ∃ tokens after, ScansTo file c tokens after ∧
      tokens.map Token.lexeme = [(.keyword .ifBranch, "@if"), (.condition, k.value),
        (.block, String.ofList k.block)] ∧ after.rest = behind := by
  obtain ⟨tokens, after, hHeaded, hLexemes, hAfter⟩ := scanHeaded_balanced file .ifBranch
    .condition hWellFormed.blanks hWellFormed.condition hWellFormed.gap hWellFormed.block hRest
  have hHead : c.rest.head? = some '@' := by rw [hRest]; rfl
  refine ⟨tokens, after, scansTo_of_step hHead ?_, hLexemes, hAfter⟩
  have hWord : atControlWord "if" (c.rest.drop 1) = true := by
    rw [hRest]
    exact atControlWord_blanks "if" hWellFormed.blanks rfl
  have hParen : (c.rest.drop 1).head? ≠ some '(' := by rw [hRest]; exact nofun
  rw [scanStep_at file c hHead]
  unfold scanAt
  dsimp only
  rw [if_neg hParen, if_pos hWord, hHeaded]

end Source

/-- A branch is scanned as what it is made of, whatever stands in its blocks and behind
it. -/
theorem Conditional.scansTo (file : String) {k : Conditional} (hWellFormed : k.WellFormed)
    {c : Cursor} {behind : List Char} (hRest : c.rest = k.text ++ behind) :
    ∃ tokens after, Source.ScansTo file c tokens after ∧ tokens.map Token.lexeme = k.lexemes ∧
      after.rest = behind := by
  have hSplit : c.rest = "@if".toList ++ (k.blanks ++ '(' :: (k.condition ++ ')' :: (k.gap ++
      '\x7b' :: (k.block ++ '\x7d' :: (k.trailing ++
        ((k.alternative?.map Alternative.text).getD [] ++ behind)))))) := by
    simp [hRest, Conditional.text]
  obtain ⟨headed, first, hHeaded, hHeadedLexemes, hFirst⟩ :=
    Source.scansTo_headed file hWellFormed hSplit
  obtain ⟨blanks, second, hBlanks, hBlanksLexemes, hSecond⟩ :=
    Source.scansTo_blanks file hWellFormed.trailing hFirst
  have hBoth := hHeaded.trans hBlanks
  unfold Conditional.lexemes
  cases hAlternative : k.alternative? with
  | none =>
      rw [hAlternative] at hSecond
      refine ⟨_, second, hBoth, ?_, hSecond⟩
      rw [List.map_append, hHeadedLexemes, hBlanksLexemes]
      exact (List.append_nil _).symm
  | some a =>
      rw [hAlternative] at hSecond
      obtain ⟨last, after, hLast, hLastLexemes, hAfter⟩ :=
        Source.scansTo_alternative file (hWellFormed.alternative a hAlternative) hSecond
      refine ⟨_, after, hBoth.trans hLast, ?_, hAfter⟩
      rw [List.map_append, List.map_append, hHeadedLexemes, hBlanksLexemes, hLastLexemes]
      rfl

end HtmlTemplate
