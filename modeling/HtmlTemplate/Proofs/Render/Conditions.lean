import HtmlTemplate.Proofs.Script.Extents
import HtmlTemplate.Proofs.Script.Packing
import HtmlTemplate.Proofs.Script.Passages
import HtmlTemplate.Proofs.Source.Conditional
import HtmlTemplate.Proofs.Source.Enclosing
import HtmlTemplate.Render.Context

/-! Captured conditions. The scanner of templates keeps a condition without the white space
outside of quoted texts, and what is left is read as script text when the branch is taken. -/
namespace HtmlTemplate

open Script (Apart Expr packed pieces)

/-- A condition as it is captured. -/
def captured (condition : String) : String :=
  String.ofList (Source.dropSpaces none condition.toList)

/-- A text in parentheses. -/
def parenthesised (text : String) : String :=
  "(" ++ text ++ ")"

namespace Script

variable {source : String} {e : Expr}

/-- A text with the lexemes of an expression, in parentheses if its level is too low, is read as
that expression, up to extents, and has its value. -/
theorem parse_of_printAt (source : String) {allowed : String → Prop} (h : e.WellFormed allowed)
    {level : Nat} (hLevel : level ≤ 10)
    (hTexts : (pieces source.toList).flatMap Piece.text = source.toList)
    (hLexemes : (pieces source.toList).filterMap Piece.lexeme? = e.printAt level) :
    ∃ found, Expr.parse source = .ok found ∧ ∀ env, evaluate source env = (e.evalIn env []).1 := by
  obtain ⟨ts, x, hSpells, hTokens⟩ := parserTokens_of_pieces hTexts hLexemes
  have hReads := (readsBack_print h).printAt hLevel
  obtain ⟨found, hSame, hTakes⟩ := hReads.lower (Nat.zero_le _) ts hSpells
  have hParse : Expr.parse source = .ok found :=
    (parse_eq_ok hTokens).mpr ⟨x, [], hTakes [⟨.finish, x⟩] rfl⟩
  refine ⟨found, hParse, fun env => ?_⟩
  rw [evaluate, hParse]
  dsimp only
  rw [SameExpr.evalIn hSame]

/-- So is a text with the lexemes of an expression and nothing else. -/
theorem parse_of_pieces (source : String) {allowed : String → Prop} (h : e.WellFormed allowed)
    (hTexts : (pieces source.toList).flatMap Piece.text = source.toList)
    (hLexemes : (pieces source.toList).filterMap Piece.lexeme? = e.print) :
    ∃ found, Expr.parse source = .ok found ∧ ∀ env, evaluate source env = (e.evalIn env []).1 :=
  parse_of_printAt source h (Nat.zero_le 10) hTexts hLexemes

/-- Capturing an expression leaves its pieces apart from white space, exactly if they are told
apart without it. -/
theorem pieces_captured_iff (h : Expr.parse source = .ok e)
    (hPaired : ∀ p ∈ pieces source.toList, p.passage?.isSome = true →
      Source.QuotesPaired p.text) :
    pieces (captured source).toList = packed (pieces source.toList) ↔
      Apart (pieces source.toList) := by
  obtain ⟨ts, hTokens, hTexts, hLexemes⟩ := exists_parserTokens h
  have hAdmits := orders_of_parse hTokens h
  rw [hLexemes, takeWhile_lexemes] at hAdmits
  rw [captured, String.toList_ofList]
  exact pieces_dropSpaces_iff hTexts hAdmits hPaired

/-- A text with the lexemes of an expression is read as the same expression, up to extents. -/
theorem parse_of_lexemes {other : String} (h : Expr.parse source = .ok e)
    (hReadable : Readable other.toList) (hSame : lexemes other.toList = lexemes source.toList) :
    ∃ f, Expr.parse other = .ok f ∧ SameExpr e f := by
  obtain ⟨ts, hTokens, -, hLexemes⟩ := exists_parserTokens h
  obtain ⟨us, x, hSpells, hOther⟩ := parserTokens_of_pieces hReadable hSame
  have hAlike : Alike ts (us ++ [⟨.finish, x⟩]) := by
    rw [Alike, hLexemes, List.map_append, hSpells]
    rfl
  exact parse_alike hTokens hOther hAlike h

/-- A captured expression whose pieces stay apart has the same value or the same failure. -/
theorem evaluate_captured (h : Expr.parse source = .ok e) (hApart : Apart (pieces source.toList))
    (env : Environment) : evaluate (captured source) env = evaluate source env := by
  obtain ⟨-, -, hTexts, -⟩ := exists_parserTokens h
  have hPaired := fun p hp hPassage => (hApart.1 p hp hPassage).1
  have hPieces := (pieces_captured_iff h hPaired).mpr hApart
  have hReadable : Readable (captured source).toList := by
    rw [Readable, hPieces, ← text_packed (pieces_sound _) hPaired, hTexts, captured,
      String.toList_ofList]
  have hLexemes : lexemes (captured source).toList = lexemes source.toList := by
    rw [lexemes, lexemes, hPieces, lexeme?_packed]
  obtain ⟨f, hParse, hSame⟩ := parse_of_lexemes h hReadable hLexemes
  exact evaluate_same h hParse hSame env

end Script

/-- A condition is evaluated as what stands in its parentheses. -/
theorem Context.conditionHolds_parenthesised (context : Context) (session : Session)
    (text : String) :
    context.conditionHolds session (parenthesised text) =
      (Script.evaluate text (context.environment session)).map Data.truthy := by
  have hTrim : Text.trim (parenthesised text).toList = '(' :: (text.toList ++ [')']) := by
    have hOpen : Text.isBlank '(' = false := by decide
    have hClose : Text.isBlank ')' = false := by decide
    simp [Text.trim, Text.trimStart, Text.trimEnd, parenthesised, hOpen, hClose]
  unfold Context.conditionHolds
  simp [hTrim, insideParens?]

namespace Source

variable {file : String} {c : Cursor} {text : List Char}

/-- `@if` with its condition, and nothing behind it. -/
theorem scanFrom_bareIf (file : String) (hText : Parenthesised ('(' :: text ++ [')']))
    (hRest : c.rest = "@if".toList ++ ([' '] ++ '(' :: (text ++ ')' :: []))) :
    ∃ word condition, scanFrom file .markup c = .ok [word, condition] ∧
      word.lexeme = (.keyword .ifBranch, "@if") ∧
      condition.lexeme =
        (.condition, String.ofList ('(' :: dropSpaces none (text ++ [')']))) := by
  have hBlank : [' '].all isSpace = true := rfl
  have hWord : (scanKeyword file .ifBranch c).2.rest = _ := Cursor.rest_skip_length hRest
  obtain ⟨head, after, hHead, hLexeme, hAfter⟩ :=
    scanHead_parenthesised file .ifBranch .condition hBlank hText hWord
  have hSkipped : (after.skipWhile isSpace).rest = [] :=
    skipWhile_blanks List.all_nil (by simp) hAfter
  have hBlock : scanOptionalBlock file .markup after = .ok ([], after.skipWhile isSpace) := by
    unfold scanOptionalBlock
    dsimp only
    rw [hSkipped]
    rfl
  have hHeaded : scanHeaded file .ifBranch .condition .markup c =
      .ok ⟨[(scanKeyword file .ifBranch c).1, head], .markup, after.skipWhile isSpace⟩ := by
    unfold scanHeaded
    dsimp only
    rw [hHead]
    dsimp only [bind, Except.bind]
    rw [hBlock]
    rfl
  have hFirst : c.rest.head? = some '@' := by rw [hRest]; rfl
  have hControl : atControlWord "if" (c.rest.drop 1) = true := by
    rw [hRest]
    exact atControlWord_blanks "if" hBlank rfl
  have hStep : scanStep file .markup '@' c =
      .ok ⟨[(scanKeyword file .ifBranch c).1, head], .markup, after.skipWhile isSpace⟩ := by
    have hParen : (c.rest.drop 1).head? ≠ some '(' := by rw [hRest]; exact nofun
    rw [scanStep_at file c hFirst]
    unfold scanAt
    dsimp only
    rw [if_neg hParen, if_pos hControl, hHeaded]
  refine ⟨(scanKeyword file .ifBranch c).1, head, ?_, rfl, hLexeme⟩
  have hScans := scansTo_of_step hFirst hStep
  rw [ScansTo, scanFrom_end file .markup hSkipped] at hScans
  exact hScans

end Source

/-- A condition that its parentheses enclose is captured as a whole. -/
theorem scan_condition {condition : String} (h : Source.parens.Encloses condition.toList)
    (file : String) :
    ∃ word token, Token.scan .markup ("@if " ++ parenthesised condition) file = .ok [word, token] ∧
      word.lexeme = (.keyword .ifBranch, "@if") ∧
      token.lexeme = (.condition, parenthesised (captured condition)) := by
  have hRest : (Cursor.start ("@if " ++ parenthesised condition).toList).rest =
      "@if".toList ++ ([' '] ++ '(' :: (condition.toList ++ ')' :: [])) := by
    simp [Cursor.start, parenthesised]
  obtain ⟨word, token, hScan, hWord, hToken⟩ :=
    Source.scanFrom_bareIf file ⟨condition.toList, rfl, h⟩ hRest
  refine ⟨word, token, hScan, hWord, ?_⟩
  rw [hToken, Source.dropSpaces_concat (by simp) rfl]
  simp [parenthesised, captured, String.ext_iff]

/-- A condition that its parentheses enclose is captured as a whole, and capturing it leaves the
pieces of the expression apart from white space, exactly if they are told apart without it. Then
the captured condition holds where the value of the expression is truthy, and fails where it has
none.

Comments and references with an odd quote in them are left out: white space behind these counts as
quoted. -/
theorem condition_kept_iff_apart {condition : String} {e : Expr} (file : String)
    (hParse : Expr.parse condition = .ok e) (hEnclosed : Source.parens.Encloses condition.toList)
    (hPaired : ∀ p ∈ pieces condition.toList, p.passage?.isSome = true →
      Source.QuotesPaired p.text) :
    ∃ word token inner,
      Token.scan .markup ("@if " ++ parenthesised condition) file = .ok [word, token] ∧
      word.lexeme = (.keyword .ifBranch, "@if") ∧
      token.lexeme = (.condition, parenthesised inner) ∧
      (pieces inner.toList = packed (pieces condition.toList) ↔
        Apart (pieces condition.toList)) ∧
      (Apart (pieces condition.toList) → ∀ (context : Context) (session : Session),
        context.conditionHolds session token.value =
          (Script.evaluate condition (context.environment session)).map Data.truthy) := by
  obtain ⟨word, token, hScan, hWord, hToken⟩ := scan_condition hEnclosed file
  refine ⟨word, token, captured condition, hScan, hWord, hToken,
    Script.pieces_captured_iff hParse hPaired, fun hApart context session => ?_⟩
  have hValue : token.value = parenthesised (captured condition) := congrArg Prod.snd hToken
  rw [hValue, context.conditionHolds_parenthesised, Script.evaluate_captured hParse hApart]

/-- The tree of `who == "a b" || guest`, where the last is a reference. -/
def knownGuest : Expr :=
  .binary ⟨0, 0⟩ .or (.binary ⟨0, 0⟩ .eq (.identifier ⟨0, 0⟩ "who") (.string ⟨0, 0⟩ "a b"))
    (.reference ⟨0, 0⟩ "guest")

/-- A condition with white space, a comment and a reference in it. -/
theorem knownGuest_kept :
    ∃ e, Expr.parse "who == \"a b\" /* greet */ || @( guest )" = .ok e ∧
      Source.parens.Encloses "who == \"a b\" /* greet */ || @( guest )".toList ∧
      Apart (pieces "who == \"a b\" /* greet */ || @( guest )".toList) ∧
      ∃ word token,
        Token.scan .markup "@if (who == \"a b\" /* greet */ || @( guest ))" "page" =
          .ok [word, token] ∧
        ∀ (context : Context) (session : Session), context.conditionHolds session token.value =
          (Script.evaluate "who == \"a b\" /* greet */ || @( guest )"
            (context.environment session)).map Data.truthy := by
  have hWellFormed : knownGuest.WellFormed (fun _ => True) := by simp [knownGuest, Expr.WellFormed]
  obtain ⟨e, hParse, -⟩ := Script.parse_of_pieces
    "who == \"a b\" /* greet */ || @( guest )" hWellFormed (by decide +kernel) (by decide +kernel)
  have hEnclosed :
      Source.parens.Encloses "who == \"a b\" /* greet */ || @( guest )".toList := by
    decide +kernel
  have hApart : Apart (pieces "who == \"a b\" /* greet */ || @( guest )".toList) := by
    decide +kernel
  refine ⟨e, hParse, hEnclosed, hApart, ?_⟩
  obtain ⟨word, token, inner, hScan, -, -, -, hHolds⟩ := condition_kept_iff_apart "page" hParse
    hEnclosed fun p hp hPassage => (hApart.1 p hp hPassage).1
  exact ⟨word, token, hScan, hHolds hApart⟩

/-- The tree of `typeof x`. -/
def typeofX : Expr :=
  .unary ⟨0, 0⟩ .typeof (.identifier ⟨0, 0⟩ "x")

/-- A context without parameters. -/
def bareContext : Context :=
  ⟨[], ⟨0, 0, 0, 0⟩, "page"⟩

/-- The word `typeof` clings to the name behind it: an expression that has the value
`"undefined"` is captured as a name without a value. -/
theorem typeof_not_kept :
    (∃ e, Expr.parse "typeof x" = .ok e) ∧ Source.parens.Encloses "typeof x".toList ∧
      ∃ word token, Token.scan .markup "@if (typeof x)" "page" = .ok [word, token] ∧
        (Script.evaluate "typeof x" (bareContext.environment (Session.start 64))).map Data.truthy =
          .ok true ∧
        bareContext.conditionHolds (Session.start 64) token.value = .ok false := by
  have hWellFormed : typeofX.WellFormed (fun _ => True) := by simp [typeofX, Expr.WellFormed]
  have hName : (Expr.identifier ⟨0, 0⟩ "typeofx").WellFormed (fun _ => True) := by
    simp [Expr.WellFormed]
  obtain ⟨e, hParse, hValue⟩ := Script.parse_of_pieces "typeof x" hWellFormed
    (by decide +kernel) (by decide +kernel)
  obtain ⟨-, -, hOther⟩ := Script.parse_of_pieces (captured "typeof x") hName
    (by decide +kernel) (by decide +kernel)
  have hEnclosed : Source.parens.Encloses "typeof x".toList := by decide +kernel
  obtain ⟨word, token, hScan, -, hToken⟩ := scan_condition hEnclosed "page"
  refine ⟨⟨e, hParse⟩, hEnclosed, word, token, hScan, ?_, ?_⟩
  · rw [hValue, Expr.evalIn, typeofX, Script.eval, Script.eval]
    rfl
  · have hCaptured : token.value = parenthesised (captured "typeof x") := congrArg Prod.snd hToken
    rw [hCaptured, bareContext.conditionHolds_parenthesised, hOther, Expr.evalIn,
      Script.eval]
    rfl

end HtmlTemplate
