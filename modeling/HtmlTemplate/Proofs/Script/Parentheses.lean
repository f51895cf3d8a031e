import HtmlTemplate.Proofs.Script.Appending
import HtmlTemplate.Proofs.Script.Extents
import HtmlTemplate.Proofs.Script.Passages
import HtmlTemplate.Proofs.Source.Brackets

/-! Parentheses around an expression. The parentheses among the tokens of an expression are
balanced, and an expression in parentheses may be read without them, as long as these two
parentheses belong together. -/
namespace HtmlTemplate.Script

def Lexeme.opensParen : Lexeme → Bool
  | .symbol .openParen => true
  | _ => false

def Lexeme.closesParen : Lexeme → Bool
  | .symbol .closeParen => true
  | _ => false

/-- Whether lexemes close the parentheses they open and `n` others. -/
def ClosesParens (n : Nat) (lexemes : List Lexeme) : Prop :=
  Balances Lexeme.opensParen Lexeme.closesParen n lexemes

instance (n : Nat) (lexemes : List Lexeme) : Decidable (ClosesParens n lexemes) :=
  inferInstanceAs (Decidable (Balances _ _ _ _))

section

variable {n : Nat} {l : Lexeme} {lexemes : List Lexeme}

theorem closesParens_nil : ClosesParens n [] ↔ n = 0 :=
  balances_nil_iff

theorem closesParens_open :
    ClosesParens n (.symbol .openParen :: lexemes) ↔ ClosesParens (n + 1) lexemes :=
  balances_of_opens rfl rfl

theorem closesParens_close :
    ClosesParens (n + 1) (.symbol .closeParen :: lexemes) ↔ ClosesParens n lexemes :=
  balances_of_closes rfl rfl

theorem not_closesParens_close : ¬ ClosesParens 0 (.symbol .closeParen :: lexemes) :=
  not_balances_of_closes rfl rfl

theorem closesParens_other (hl : l ∉ [.symbol .openParen, .symbol .closeParen]) :
    ClosesParens n (l :: lexemes) ↔ ClosesParens n lexemes := by
  refine balances_of_neither ?_ ?_
  · unfold Lexeme.opensParen
    split
    · exact absurd (by simp) hl
    · rfl
  · unfold Lexeme.closesParen
    split
    · exact absurd (by simp) hl
    · rfl

end

/-! What the parser takes. -/

/-- The lexemes of a text are told from its end by the first end of the text among them. -/
def upToEnd (ts : List Token) : List Lexeme :=
  (ts.map (·.lexeme)).takeWhile (· ≠ .finish)

section

variable {n : Nat} {l : Lexeme} {x : Extent} {ts us whole rest behind : List Token} {e : Expr}

theorem upToEnd_cons (h : l ≠ .finish) : upToEnd (⟨l, x⟩ :: ts) = l :: upToEnd ts :=
  List.takeWhile_cons_of_pos (by simpa using h)

theorem upToEnd_finish : upToEnd (⟨.finish, x⟩ :: ts) = [] :=
  List.takeWhile_cons_of_neg (by simp)

/-- Tokens that are left of a text. -/
def Leaves (whole : List Token) (n : Nat) (ts us : List Token) : Prop :=
  us = ts ∧ (ClosesParens n (upToEnd ts) → ClosesParens 0 (upToEnd whole))

theorem couples_leaves : Couples (Leaves whole) where
  head h := .inr (h.1 ▸ rfl)
  opens h := by
    obtain ⟨hSame, hWhole⟩ := h
    rw [upToEnd_cons (by simp), closesParens_open] at hWhole
    exact ⟨(List.cons.inj hSame).2, hWhole⟩
  closes h := by
    obtain ⟨hSame, hWhole⟩ := h
    rw [upToEnd_cons (by simp), closesParens_close] at hWhole
    exact ⟨(List.cons.inj hSame).2, hWhole⟩
  other hl h := by
    obtain ⟨hSame, hWhole⟩ := h
    rw [upToEnd_cons (by grind), closesParens_other (by grind)] at hWhole
    exact ⟨(List.cons.inj hSame).2, hWhole⟩

/-- The parentheses of an expression are balanced. -/
theorem closesParens_of_reads (h : Reads (assignment whole) e (⟨.finish, x⟩ :: rest)) :
    ClosesParens 0 (upToEnd whole) := by
  obtain ⟨less, hRead⟩ := h
  obtain ⟨-, -, -, -, hWhole⟩ :=
    assignment_mirrors couples_leaves (R := Leaves whole) ⟨rfl, id⟩ _ hRead
  exact hWhole (by rw [upToEnd_finish, closesParens_nil])

/-- Tokens with the same lexemes up to two ends, which close the parentheses that are open. -/
def Upto (rest behind : List Token) (n : Nat) (ts us : List Token) : Prop :=
  ∃ front other, ts = front ++ rest ∧ us = other ++ behind ∧ Alike front other ∧
    ClosesParens n (front.map (·.lexeme))

theorem Upto.tail (hRest : Inert rest) {y : Extent} (h : Upto rest behind n (⟨l, x⟩ :: ts) (⟨l, y⟩ :: us))
    (hMore : n ≠ 0 ∨ l ∉ [.symbol .closeParen, .finish]) :
    ∃ front other, ts = front ++ rest ∧ us = other ++ behind ∧ Alike front other ∧
      ClosesParens n (l :: front.map (·.lexeme)) := by
  obtain ⟨front, other, hLeft, hRight, hAlike, hCloses⟩ := h
  cases front with
  | nil =>
      subst hLeft
      refine hMore.elim (absurd (closesParens_nil.mp hCloses)) fun hl => absurd ?_ hl
      simpa using hRest _ rfl
  | cons t front =>
      obtain ⟨u, other, rfl, -, hLexemes⟩ := List.map_eq_cons_iff.mp hAlike.symm
      cases hLeft
      cases hRight
      exact ⟨front, other, rfl, rfl, hLexemes.symm, hCloses⟩

/-- What stands behind such tokens does not matter if no expression goes on with it. -/
theorem couples_upto (hRest : Inert rest) (hBehind : Inert behind) :
    Couples (Upto rest behind) where
  head h := by
    obtain ⟨front, other, rfl, rfl, hAlike, hCloses⟩ := h
    cases front with
    | nil =>
        obtain rfl : other = [] := List.map_eq_nil_iff.mp hAlike.symm
        exact .inl ⟨closesParens_nil.mp hCloses, hRest, hBehind⟩
    | cons t front =>
        obtain ⟨u, other, rfl, hLexeme, -⟩ := List.map_eq_cons_iff.mp hAlike.symm
        exact .inr (congrArg some hLexeme.symm)
  opens h := by
    obtain ⟨front, other, hLeft, hRight, hAlike, hCloses⟩ := h.tail hRest (.inr (by simp))
    exact ⟨front, other, hLeft, hRight, hAlike, closesParens_open.mp hCloses⟩
  closes h := by
    obtain ⟨front, other, hLeft, hRight, hAlike, hCloses⟩ := h.tail hRest (.inl (by simp))
    exact ⟨front, other, hLeft, hRight, hAlike, closesParens_close.mp hCloses⟩
  other hl h := by
    obtain ⟨front, other, hLeft, hRight, hAlike, hCloses⟩ := h.tail hRest (.inr (by grind))
    exact ⟨front, other, hLeft, hRight, hAlike, (closesParens_other (by grind)).mp hCloses⟩

/-- What begins with a parenthesis is an operand, if it is an expression at all. -/
theorem primary_of_assignment {found : Parsed _ Expr}
    (h : assignment (⟨.symbol .openParen, x⟩ :: ts) = .ok found) :
    ∃ operand, primary (⟨.symbol .openParen, x⟩ :: ts) = .ok operand := by
  rw [assignment] at h
  obtain ⟨_, h, -⟩ := bind_eq_ok.mp h
  rw [conditional] at h
  obtain ⟨_, h, -⟩ := bind_eq_ok.mp h
  rw [binary] at h
  obtain ⟨_, h, -⟩ := bind_eq_ok.mp h
  rw [unary] at h
  dsimp only [UnaryOp.ofLexeme?] at h
  rw [postfixed] at h
  obtain ⟨operand, h, -⟩ := bind_eq_ok.mp h
  exact ⟨operand, h⟩

/-- An operand in front of the end of the text is the whole expression. -/
theorem reads_of_primary (h : Reads (primary (⟨.symbol .openParen, x⟩ :: ts)) e rest)
    (hRest : Inert rest) : Reads (assignment (⟨.symbol .openParen, x⟩ :: ts)) e rest := by
  have hReach := hRest.reach_eq
  have hUnary : Reads (unary (⟨.symbol .openParen, x⟩ :: ts)) e rest := by
    rw [unary]
    dsimp only [UnaryOp.ofLexeme?]
    rw [postfixed]
    exact h.bind fun _ => (reads_suffixes_end e (by omega)).bind fun _ => reads_ok _
  have hBinary : Reads (binary 0 (⟨.symbol .openParen, x⟩ :: ts)) e rest := by
    rw [binary]
    exact hUnary.bind fun _ =>
      (reads_operators_of_reach e (by omega)).bind fun _ => reads_ok _
  exact reads_assignment (reads_conditional hBinary (by omega)) hReach

/-- An expression whose first parenthesis is closed by its last is read without them. -/
theorem reads_unparenthesised {y z w : Extent} {inner other : List Token}
    (h : Reads (assignment (⟨.symbol .openParen, x⟩ ::
      (inner ++ [⟨.symbol .closeParen, y⟩, ⟨.finish, z⟩]))) e behind)
    (hCloses : ClosesParens 0 (inner.map (·.lexeme))) (hAlike : Alike inner other) :
    ∃ f, Reads (assignment (other ++ [⟨.finish, w⟩])) f [⟨.finish, w⟩] ∧ SameExpr e f := by
  obtain ⟨less, hRead⟩ := h
  obtain ⟨⟨operand, last, fewer⟩, hOperand⟩ := primary_of_assignment hRead
  have hInside := hOperand
  rw [primary] at hInside
  obtain ⟨⟨found, left, _⟩, hFound, hInside⟩ := bind_eq_ok.mp hInside
  obtain ⟨⟨_, after, _⟩, hClose, hInside⟩ := bind_eq_ok.mp hInside
  cases hInside
  obtain rfl := expect_eq_ok hClose
  have hEnd : Inert [⟨.symbol .closeParen, y⟩, ⟨.finish, z⟩] := by simp [Inert]
  have hFinish (w : Extent) : Inert [⟨.finish, w⟩] := by simp [Inert]
  obtain ⟨⟨f, others, less'⟩, hOther, hSame, front, rear, hLeft, hRight, hRear, hCount⟩ :=
    assignment_mirrors (couples_upto hEnd (hFinish w)) ⟨inner, other, rfl, rfl, hAlike, hCloses⟩ _
      hFound
  -- a parenthesis in front of the last one would close one that is not open
  obtain rfl : front = [] := by
    cases front with
    | nil => rfl
    | cons t front =>
        cases hLeft
        exact absurd hCount not_closesParens_close
  obtain rfl : rear = [] := List.map_eq_nil_iff.mp hRear.symm
  cases hLeft
  obtain rfl := hRight
  obtain ⟨_, hWhole⟩ := reads_of_primary ⟨fewer, hOperand⟩ (hFinish z)
  cases hRead.symm.trans hWhole
  exact ⟨f, ⟨less', hOther⟩, hSame⟩

end

/-! Texts. -/

section

variable {source : String} {e : Expr} {inner : List Char}

/-- The parentheses among the lexemes of an expression are balanced. -/
theorem closesParens_of_parse (h : Expr.parse source = .ok e) :
    ClosesParens 0 (lexemes source.toList) := by
  obtain ⟨ts, hTokens, -, hLexemes⟩ := exists_parserTokens h
  obtain ⟨y, rest, hReads⟩ := (parse_eq_ok hTokens).mp h
  have hCloses := closesParens_of_reads hReads
  rwa [upToEnd, hLexemes, takeWhile_lexemes] at hCloses

theorem pieces_openParen (rest : List Char) :
    pieces ('(' :: rest) = .lexeme (.symbol .openParen) ['('] :: pieces rest := by
  have hFound : lexAt 0 '(' rest = .ok ⟨.symbol .openParen, 0, 0⟩ := rfl
  rw [pieces_lexeme rfl rfl hFound]
  rfl

theorem lexemes_closeParen : lexemes [')'] = [.symbol .closeParen] := by
  have hFound : lexAt 0 ')' [] = .ok ⟨.symbol .closeParen, 0, 0⟩ := rfl
  rw [lexemes, pieces_lexeme rfl rfl hFound, List.drop_nil, pieces_nil]
  rfl

/-- What an expression in parentheses is made of, if these belong together. -/
theorem readable_inside (hReadable : Readable (inner ++ [')']))
    (hAll : ClosesParens 1 (lexemes (inner ++ [')']))) (hCloses : ClosesParens 0 (lexemes inner)) :
    Readable inner ∧ lexemes (inner ++ [')']) = lexemes inner ++ [.symbol .closeParen] := by
  have hInside := hCloses.total
  have hTotal := hAll.total
  -- the last parenthesis is counted, so that it is not taken into a comment or a reference
  cases grows_of_readable (.inr rfl) hReadable with
  | apart hReadable hSame => exact ⟨hReadable, lexemes_closeParen ▸ hSame⟩
  | commented _ hSame =>
      rw [hSame] at hTotal
      omega
  | referred _ path hSame =>
      rw [hSame, List.countP_append, List.countP_append] at hTotal
      simp [Lexeme.opensParen, Lexeme.closesParen] at hTotal
      omega

/-- The text between the parentheses that an expression begins and ends with is an expression
itself, exactly if the parentheses in it belong together, and then it is the same one. -/
theorem parse_inside_iff (h : Expr.parse source = .ok e)
    (hInside : source.toList = '(' :: (inner ++ [')'])) :
    (∃ f, Expr.parse (String.ofList inner) = .ok f ∧ SameExpr e f) ↔
      ClosesParens 0 (lexemes inner) := by
  constructor
  · rintro ⟨f, hParse, -⟩
    simpa using closesParens_of_parse hParse
  · intro hCloses
    have hPieces := pieces_openParen (inner ++ [')'])
    have hAll := closesParens_of_parse h
    obtain ⟨ts, hTokens, hReadable, hLexemes⟩ := exists_parserTokens h
    rw [hInside, lexemes_cons hPieces] at hAll
    rw [hInside] at hReadable
    obtain ⟨hReadable, hSame⟩ := readable_inside ((readable_cons hPieces rfl).mp hReadable)
      (closesParens_open.mp hAll) hCloses
    obtain ⟨us, w, hSpells, hOther⟩ :=
      @parserTokens_of_pieces (String.ofList inner) _ (by rwa [String.toList_ofList]) rfl
    rw [String.toList_ofList] at hSpells
    have hTaken : Spells ts (.symbol .openParen ::
        (lexemes inner ++ [.symbol .closeParen, .finish])) := by
      have hWhole := lexemes_cons hPieces
      rw [hSame] at hWhole
      rw [Spells, hLexemes, hInside, ← lexemes, hWhole]
      simp [Piece.lexeme?]
    obtain ⟨x, behind, rfl, hBehind⟩ := spells_cons.mp hTaken
    obtain ⟨front, ends, rfl, hFront, hEnds⟩ := spells_append.mp hBehind
    obtain ⟨y, last, rfl, hLast⟩ := spells_cons.mp hEnds
    obtain ⟨z, rfl⟩ := spells_single.mp hLast
    obtain ⟨v, rest, hReads⟩ := (parse_eq_ok hTokens).mp h
    obtain ⟨f, hRead, hBare⟩ := reads_unparenthesised (w := w) hReads (hFront ▸ hCloses)
      (hFront.trans hSpells.symm)
    exact ⟨f, (parse_eq_ok hOther).mpr ⟨w, [], hRead⟩, hBare⟩

end

end HtmlTemplate.Script
