import HtmlTemplate.Proofs.Source.Conditional

/-! How a loop is written in markup, and that the scanner reads it so. -/
namespace HtmlTemplate

/-- A loop in markup: the white space behind `@each`, the head between its parentheses, the
white space behind that, and the block between its braces. -/
structure Iteration where
  blanks : List Char
  head : List Char
  gap : List Char
  block : List Char

namespace Iteration

/-- A loop as it is written. -/
def text (l : Iteration) : List Char :=
  "@each".toList ++ (l.blanks ++ '(' :: (l.head ++ ')' :: (l.gap ++ '\x7b' :: (l.block ++
    ['\x7d']))))

/-- The head as its token holds it: in its parentheses, and without the white space outside of
quoted texts. -/
def value (l : Iteration) : String :=
  String.ofList ('(' :: Source.dropSpaces none (l.head ++ [')']))

/-- What the scanner makes of a loop. -/
def lexemes (l : Iteration) : List (TokenKind × String) :=
  [(.keyword .eachItem, "@each"), (.each, l.value), (.block, String.ofList l.block)]

/-- The spacings are white space, the head ends at its own closing parenthesis and the braces
of the block are balanced. -/
structure WellFormed (l : Iteration) : Prop where
  blanks : l.blanks.all Source.isSpace = true
  head : Parenthesised ('(' :: l.head ++ [')'])
  gap : l.gap.all Source.isSpace = true
  block : BracesBalanced l.block

/-- In front of `@each` and a parenthesis the scanner reads a loop. -/
theorem scanStep_each (file : String) {blanks behind : List Char}
    (hBlanks : blanks.all Source.isSpace = true) {c : Cursor}
    (hRest : c.rest = "@each".toList ++ (blanks ++ '(' :: behind)) :
    Source.scanStep file .markup '@' c = Source.scanHeaded file .eachItem .each .markup c := by
  have hHead : c.rest.head? = some '@' := by rw [hRest]; rfl
  have hWord : Source.atControlWord "each" (c.rest.drop 1) = true := by
    rw [hRest]
    exact Source.atControlWord_blanks "each" hBlanks rfl
  have hBranch : Source.atControlWord "if" (c.rest.drop 1) = false := by rw [hRest]; rfl
  have hElse : Source.atControlWord "else" (c.rest.drop 1) = false := by rw [hRest]; rfl
  have hParen : (c.rest.drop 1).head? ≠ some '(' := by rw [hRest]; exact nofun
  rw [Source.scanStep_at file c hHead]
  unfold Source.scanAt
  dsimp only
  rw [if_neg hParen, if_neg (Bool.eq_false_iff.mp hBranch), if_neg (Bool.eq_false_iff.mp hElse),
    if_pos hWord]

/-- The scanner takes a loop in one step, as what it is made of, whatever stands in its block
and behind it. -/
theorem scanStep_eq (file : String) {l : Iteration} (hWellFormed : l.WellFormed) {c : Cursor}
    {behind : List Char} (hRest : c.rest = l.text ++ behind) :
    ∃ tokens after, Source.scanStep file .markup '@' c = .ok ⟨tokens, .markup, after⟩ ∧
      tokens.map Token.lexeme = l.lexemes ∧ after.rest = behind := by
  have hSplit : c.rest = "@each".toList ++ (l.blanks ++ '(' :: (l.head ++ ')' :: (l.gap ++
      '\x7b' :: (l.block ++ '\x7d' :: behind)))) := by
    simp [hRest, text]
  obtain ⟨tokens, after, hHeaded, hLexemes, hAfter⟩ :=
    Source.scanHeaded_balanced file .eachItem .each hWellFormed.blanks hWellFormed.head
      hWellFormed.gap hWellFormed.block hSplit
  refine ⟨tokens, after, ?_, hLexemes, hAfter⟩
  rw [scanStep_each file hWellFormed.blanks hSplit, hHeaded]

/-- A loop is scanned as what it is made of, whatever stands in its block and behind it. -/
theorem scansTo (file : String) {l : Iteration} (hWellFormed : l.WellFormed) {c : Cursor}
    {behind : List Char} (hRest : c.rest = l.text ++ behind) :
    ∃ tokens after, Source.ScansTo file c tokens after ∧ tokens.map Token.lexeme = l.lexemes ∧
      after.rest = behind := by
  obtain ⟨tokens, after, hStep, hLexemes, hAfter⟩ := scanStep_eq file hWellFormed hRest
  have hHead : c.rest.head? = some '@' := by rw [hRest]; rfl
  exact ⟨tokens, after, Source.scansTo_of_step hHead hStep, hLexemes, hAfter⟩

end Iteration

end HtmlTemplate
