import HtmlTemplate.Proofs.Script.Pieces
import HtmlTemplate.Proofs.Script.RoundTrip

/-! Comments and references as script texts of their own. A comment is the empty program, and
a reference is a program of one expression. -/
namespace HtmlTemplate.Script

/-- What the parser is given of a text that its pieces make up. -/
theorem parserTokens_of_pieces {source : String} {lexemes : List Lexeme}
    (hTexts : (pieces source.toList).flatMap Piece.text = source.toList)
    (hLexemes : (pieces source.toList).filterMap Piece.lexeme? = lexemes) :
    ∃ ts x, Spells ts lexemes ∧ parserTokens source = .ok (ts ++ [⟨.finish, x⟩]) := by
  obtain ⟨all, hTokens⟩ := lexFrom_of_pieces hTexts 0
  obtain ⟨-, hAll⟩ := lexFrom_pieces hTokens
  rw [hLexemes] at hAll
  obtain ⟨ts, last, rfl, hSpells, hLast⟩ := spells_append.mp hAll
  obtain ⟨x, rfl⟩ := spells_single.mp hLast
  refine ⟨ts, x, hSpells, ?_⟩
  rw [parserTokens, tokens, hTokens]
  rfl

/-- What the parser is given of a text that it reads. -/
theorem exists_parserTokens {source : String} {e : Expr} (h : Expr.parse source = .ok e) :
    ∃ ts, parserTokens source = .ok ts ∧
      (pieces source.toList).flatMap Piece.text = source.toList ∧
      ts.map (·.lexeme) = (pieces source.toList).filterMap Piece.lexeme? ++ [.finish] := by
  obtain ⟨ts, hTokens, -⟩ := bind_eq_ok.mp h
  exact ⟨ts, hTokens, tokens_pieces (mapError_eq_ok.mp hTokens)⟩

/-- One comment or one reference, and nothing else. -/
def IsPassage (text : List Char) : Prop :=
  pieces text = [.comment text] ∨ ∃ path, pieces text = [.lexeme (.reference path) text]

section

variable {text : List Char}

theorem IsPassage.passages (h : IsPassage text) : passages text = [text] := by
  unfold Script.passages
  rcases h with h | ⟨path, h⟩ <;> rw [h] <;> rfl

theorem IsPassage.text_pieces (h : IsPassage text) : (pieces text).flatMap Piece.text = text := by
  rcases h with h | ⟨path, h⟩ <;> rw [h] <;> exact List.append_nil text

/-- A text without a lexeme is an empty program. -/
theorem statements_finish (x : Extent) : statements [⟨.finish, x⟩] = .ok [] := by
  rw [statements]
  rfl

/-- A lone reference is an expression statement. -/
theorem statements_reference (path : String) (x y : Extent) :
    statements [⟨.reference path, x⟩, ⟨.finish, y⟩] = .ok [.expression (.reference x path)] := by
  have hTakes : Takes 10 [⟨.reference path, x⟩] (.reference x path) :=
    takes_of_primary rfl fun rest => by rw [primary]; exact reads_ok _
  obtain ⟨less, hReads⟩ := hTakes.lower (Nat.zero_le 10) [⟨.finish, y⟩] rfl
  have hStatement : Reads (statement [⟨.reference path, x⟩, ⟨.finish, y⟩])
      (some (.expression (.reference x path))) [⟨.finish, y⟩] := by
    have hSemicolon : eat? .semicolon [⟨.reference path, x⟩, ⟨.finish, y⟩] = none := rfl
    have hBrace : eat? .openBrace [⟨.reference path, x⟩, ⟨.finish, y⟩] = none := rfl
    have hWord : word? [⟨.reference path, x⟩, ⟨.finish, y⟩] = none := rfl
    rw [statement]
    simp only [hSemicolon, hBrace, hWord]
    have hExpression : Reads (assignment [⟨.reference path, x⟩, ⟨.finish, y⟩])
        (.reference x path) [⟨.finish, y⟩] := ⟨less, hReads⟩
    exact hExpression.bind fun _ => reads_ok _
  obtain ⟨less, hStatement⟩ := hStatement
  rw [statements, if_neg (by simp), hStatement]
  change (statements [⟨.finish, y⟩] >>= fun later => pure ([_] ++ later)) = _
  rw [statements_finish]
  rfl

/-- A passage is a program. -/
theorem IsPassage.parseAll (h : IsPassage text) :
    ∃ program, Statement.parseAll (String.ofList text) = .ok program := by
  have hTexts : (pieces (String.ofList text).toList).flatMap Piece.text =
      (String.ofList text).toList := by
    rw [String.toList_ofList, h.text_pieces]
  obtain ⟨ts, y, hSpells, hTokens⟩ := parserTokens_of_pieces hTexts rfl
  rw [String.toList_ofList] at hSpells
  suffices h : ∃ program, statements (ts ++ [⟨.finish, y⟩]) = .ok program by
    obtain ⟨program, hProgram⟩ := h
    refine ⟨program, ?_⟩
    rw [Statement.parseAll, hTokens]
    exact hProgram
  rcases h with h | ⟨path, h⟩
  · rw [h] at hSpells
    obtain rfl := spells_nil.mp hSpells
    exact ⟨_, statements_finish y⟩
  · rw [h] at hSpells
    obtain ⟨x, rfl⟩ := spells_single.mp hSpells
    exact ⟨_, statements_reference path x y⟩

end

end HtmlTemplate.Script
