import HtmlTemplate.Proofs.Result
import HtmlTemplate.Proofs.Script.RoundTrip

/-! Printed statements are read back. A statement ends with its semicolon or its brace, and
nothing but the word `else` goes on from it, which begins no statement. -/
namespace HtmlTemplate.Script

/-! What follows a statement. -/

/-- The word `else` does not stand first. -/
def NotElse (ts : List Token) : Prop :=
  ∀ t ∈ ts.head?, t.lexeme ≠ .identifier "else"

/-- A lexeme that can begin a statement. -/
def Lexeme.BeginsStatement (lexeme : Lexeme) : Prop :=
  lexeme ≠ .symbol .closeBrace ∧ lexeme ≠ .finish ∧ lexeme ≠ .identifier "else"

instance (lexeme : Lexeme) : Decidable lexeme.BeginsStatement :=
  inferInstanceAs (Decidable (_ ∧ _ ∧ _))

/-- Lexemes that begin as a statement does. -/
def Starting (lexemes : List Lexeme) : Prop :=
  ∃ first rest, lexemes = first :: rest ∧ first.BeginsStatement

theorem starting_cons {first : Lexeme} {rest : List Lexeme} (h : first.BeginsStatement) :
    Starting (first :: rest) :=
  ⟨first, rest, rfl, h⟩

theorem Opening.starting {lexemes : List Lexeme} (h : Opening Unreserved lexemes)
    (more : List Lexeme) : Starting (lexemes ++ more) := by
  obtain ⟨first, rest, rfl, hFirst⟩ := h
  apply starting_cons
  refine ⟨?_, ?_, ?_⟩
  · rintro rfl
    simp [Lexeme.Opens] at hFirst
  · rintro rfl
    exact hFirst
  · rintro rfl
    exact hFirst (by decide)

theorem opening_printApart {e : Expr} (h : e.WellFormed Unreserved) :
    Opening Unreserved e.printApart :=
  (opening_print h).enclose _

theorem starting_print {s : Statement} (h : s.WellFormed) : Starting s.print := by
  cases s with
  | declare kind name value =>
      have hWord : (Lexeme.identifier kind.word).BeginsStatement := by cases kind <;> decide
      cases value <;> exact starting_cons hWord
  | giveBack value =>
      have hWord : (Lexeme.identifier "return").BeginsStatement := by decide
      cases value <;> exact starting_cons hWord
  | branch condition consequent alternate =>
      have hWord : (Lexeme.identifier "if").BeginsStatement := by decide
      cases alternate <;> exact starting_cons hWord
  | block body =>
      have hBrace : (Lexeme.symbol .openBrace).BeginsStatement := by decide
      exact starting_cons hBrace
  | expression e => exact (opening_printApart h).starting _

section

variable {ts : List Token} {lexemes : List Lexeme}

theorem Starting.notElse (hSpells : Spells ts lexemes) (h : Starting lexemes) (rest : List Token) :
    NotElse (ts ++ rest) := by
  obtain ⟨first, others, rfl, hFirst⟩ := h
  obtain ⟨x, us, rfl, -⟩ := spells_cons.mp hSpells
  rintro t ⟨⟩
  exact hFirst.2.2

theorem notElse_printStatements {ss : List Statement} (h : WellFormedStatements ss)
    (hSpells : Spells ts (printStatements ss)) {rest : List Token} (hRest : NotElse rest) :
    NotElse (ts ++ rest) := by
  cases ss with
  | nil =>
      cases spells_nil.mp hSpells
      exact hRest
  | cons s ss =>
      obtain ⟨us, vs, rfl, hus, -⟩ := spells_append.mp hSpells
      rw [List.append_assoc]
      exact (starting_print h.1).notElse hus _

end

/-! Parts of statements. -/

/-- Some tokens are taken for a statement. -/
def TakesStatement (ts : List Token) (s : Statement) : Prop :=
  ∀ rest, NotElse rest → Reads (statement (ts ++ rest)) (some s) rest

/-- Some tokens are taken for the statements up to a closing brace. -/
def TakesBlock (ts : List Token) (ss : List Statement) : Prop :=
  ∀ x rest, Reads (block (ts ++ ⟨.symbol .closeBrace, x⟩ :: rest)) ss rest

section

variable {bound : Nat} {α : Type} {a : α} {rest : List Token} {x : Extent}

theorem reads_skipSemicolon (less : (⟨.symbol .semicolon, x⟩ :: rest : List Token).length < bound) :
    Reads (pure (skipSemicolon (⟨a, ⟨.symbol .semicolon, x⟩ :: rest, less⟩ : Parsed bound α)))
      a rest := by
  simp only [skipSemicolon, eat?_same]
  exact reads_ok _

/-- A statement that begins with a word is none of those that begin with a symbol. -/
theorem eat?_word {name : String} {s : Symbol} : eat? s (⟨.identifier name, x⟩ :: rest) = none :=
  eat?_other (by simp)

theorem word?_same {name : String} :
    word? (⟨.identifier name, x⟩ :: rest) = some ⟨name, rest, Nat.lt_succ_self _⟩ :=
  rfl

theorem NotElse.word? {ts : List Token} (h : NotElse ts) {found : Parsed ts.length String}
    (hFound : HtmlTemplate.Script.word? ts = some found) : found.value ≠ "else" := by
  unfold HtmlTemplate.Script.word? at hFound
  split at hFound <;> cases hFound
  intro hElse
  exact h _ rfl (congrArg Lexeme.identifier hElse)

end

section

variable {us vs ts rest : List Token} {e : Expr} {v w x y z : Extent}

/-! Declarations. -/

theorem reads_declarations (kind : Declaration) (name : String) :
    Reads (declarations kind (⟨.identifier name, y⟩ :: ⟨.symbol .semicolon, z⟩ :: rest))
      [.declare kind name none] (⟨.symbol .semicolon, z⟩ :: rest) := by
  rw [declarations]
  simp only [eat?_symbol (show Symbol.semicolon ≠ .eq by decide)]
  refine (reads_ok _).bind fun _ => ?_
  simp only [eat?_symbol (show Symbol.semicolon ≠ .comma by decide)]
  exact reads_ok _

theorem reads_declarations_value (kind : Declaration) (name : String) (h : Takes 0 ts e) :
    Reads (declarations kind (⟨.identifier name, y⟩ :: ⟨.symbol .eq, w⟩ ::
        (ts ++ ⟨.symbol .semicolon, z⟩ :: rest)))
      [.declare kind name (some e)] (⟨.symbol .semicolon, z⟩ :: rest) := by
  rw [declarations]
  simp only [eat?_same]
  refine (h (⟨.symbol .semicolon, z⟩ :: rest) rfl).bind fun _ => ?_
  refine (reads_ok _).bind fun _ => ?_
  simp only [eat?_symbol (show Symbol.semicolon ≠ .comma by decide)]
  exact reads_ok _

theorem reads_declaration {kind : Declaration} {declared : List Statement}
    (h : Reads (declarations kind ts) declared (⟨.symbol .semicolon, z⟩ :: rest)) :
    Reads (statement (⟨.identifier kind.word, x⟩ :: ts)) (some (declarationStatement declared))
      rest := by
  rw [statement]
  simp only [eat?_word, word?_same]
  split
  · next hWord => cases kind <;> simp [Declaration.word] at hWord
  · next hWord => cases kind <;> simp [Declaration.word] at hWord
  · next hWord =>
    cases hWord
    simp only [Declaration.ofWord?_word]
    refine h.bind fun _ => ?_
    exact reads_skipSemicolon _
  · next hWord => cases hWord

theorem takesStatement_declare (kind : Declaration) (name : String) :
    TakesStatement [⟨.identifier kind.word, x⟩, ⟨.identifier name, y⟩, ⟨.symbol .semicolon, z⟩]
      (.declare kind name none) :=
  fun _ _ => reads_declaration (reads_declarations kind name)

theorem takesStatement_declare_value (kind : Declaration) (name : String) (h : Takes 0 ts e) :
    TakesStatement (⟨.identifier kind.word, x⟩ :: ⟨.identifier name, y⟩ :: ⟨.symbol .eq, w⟩ ::
      (ts ++ [⟨.symbol .semicolon, z⟩])) (.declare kind name (some e)) := by
  intro rest _
  rw [List.cons_append, List.cons_append, List.cons_append, List.append_assoc]
  exact reads_declaration (reads_declarations_value kind name h)

/-! Returns. -/

theorem takesStatement_giveBack :
    TakesStatement [⟨.identifier "return", x⟩, ⟨.symbol .semicolon, z⟩] (.giveBack none) := by
  intro rest _
  rw [List.cons_append, statement]
  simp only [eat?_word, word?_same]
  exact reads_skipSemicolon _

theorem takesStatement_giveBack_value (h : Takes 0 ts e)
    (hEnd : ∀ more, atStatementEnd (ts ++ more) = false) :
    TakesStatement (⟨.identifier "return", x⟩ :: (ts ++ [⟨.symbol .semicolon, z⟩]))
      (.giveBack (some e)) := by
  intro rest _
  rw [List.cons_append, List.append_assoc, statement]
  simp only [eat?_word, word?_same, hEnd]
  refine (h _ rfl).bind fun _ => ?_
  exact reads_skipSemicolon _

/-! Blocks. -/

theorem takesStatement_block {ss : List Statement} (h : TakesBlock ts ss) :
    TakesStatement (⟨.symbol .openBrace, x⟩ :: (ts ++ [⟨.symbol .closeBrace, y⟩])) (.block ss) := by
  intro rest _
  rw [List.cons_append, List.append_assoc, statement]
  simp only [eat?_symbol (show Symbol.openBrace ≠ .semicolon by decide), eat?_same]
  refine (h y rest).bind fun _ => ?_
  exact reads_ok _

theorem takesBlock_nil : TakesBlock [] [] := by
  intro x rest
  rw [List.nil_append, block]
  simp only [eat?_same]
  exact reads_ok _

theorem takesBlock_cons {s : Statement} {ss : List Statement} {lexemes : List Lexeme}
    (hSpells : Spells us lexemes) (hStarting : Starting lexemes) (h : TakesStatement us s)
    (hMore : TakesBlock vs ss) (hElse : ∀ rest, NotElse rest → NotElse (vs ++ rest)) :
    TakesBlock (us ++ vs) (s :: ss) := by
  intro x rest
  have hLater : NotElse (vs ++ ⟨.symbol .closeBrace, x⟩ :: rest) := by
    apply hElse
    rintro t ⟨⟩
    exact Lexeme.noConfusion
  have hRead := h _ hLater
  obtain ⟨first, others, rfl, hBrace, hFinish, -⟩ := hStarting
  obtain ⟨w, us, rfl, -⟩ := spells_cons.mp hSpells
  rw [List.append_assoc]
  rw [List.cons_append] at hRead ⊢
  rw [block]
  simp only [eat?_other hBrace, List.head?_cons, Option.map_some, Option.some.injEq, hFinish,
    if_false]
  refine hRead.bind fun _ => ?_
  refine (hMore x rest).bind fun _ => ?_
  exact reads_ok _

/-! Branches. -/

theorem reads_branch {ss : List Statement} (h : TakesBlock ts ss) :
    Reads (branch (⟨.symbol .openBrace, x⟩ :: (ts ++ ⟨.symbol .closeBrace, y⟩ :: rest))) ss rest := by
  rw [branch]
  simp only [eat?_same]
  refine (h y rest).bind fun _ => ?_
  exact reads_ok _

/-- Some tokens are taken for what stands behind the block of an `if`. -/
def TakesElse (ts : List Token) (ss : List Statement) : Prop :=
  (ts = [] ∧ ss = []) ∨ ∃ x y z us, TakesBlock us ss ∧
    ts = ⟨.identifier "else", x⟩ :: ⟨.symbol .openBrace, y⟩ :: (us ++ [⟨.symbol .closeBrace, z⟩])

theorem takesStatement_branch {consequent alternate : List Statement} (h : Takes 0 ts e)
    (hConsequent : TakesBlock us consequent) (hAlternate : TakesElse vs alternate) :
    TakesStatement (⟨.identifier "if", v⟩ :: ⟨.symbol .openParen, w⟩ :: (ts ++
      ⟨.symbol .closeParen, x⟩ :: ⟨.symbol .openBrace, y⟩ ::
        (us ++ ⟨.symbol .closeBrace, z⟩ :: vs))) (.branch e consequent alternate) := by
  intro rest hRest
  rw [List.cons_append, List.cons_append, List.append_assoc, List.cons_append, List.cons_append,
    List.append_assoc, List.cons_append]
  generalize hMore : vs ++ rest = more
  rw [statement]
  simp only [eat?_word, word?_same]
  refine (reads_expect _).bind fun _ => ?_
  refine (h (⟨.symbol .closeParen, x⟩ :: _) rfl).bind fun _ => ?_
  refine (reads_expect _).bind fun _ => ?_
  refine (reads_branch hConsequent).bind fun _ => ?_
  obtain ⟨rfl, rfl⟩ | ⟨x', y', z', ws, hBlock, rfl⟩ := hAlternate
  · cases hMore
    dsimp only
    split
    · next hWord => exact absurd rfl (hRest.word? hWord)
    · exact reads_ok _
  · rw [List.cons_append, List.cons_append, List.append_assoc] at hMore
    cases hMore
    simp only [word?_same]
    refine (reads_branch hBlock).bind fun _ => ?_
    exact reads_ok _

/-! Expressions. -/

theorem Unreserved.ofWord? {name : String} (h : Unreserved name) :
    Declaration.ofWord? name = none := by
  unfold Declaration.ofWord?
  split
  · exact absurd (by decide) h
  · exact absurd (by decide) h
  · exact absurd (by decide) h
  · rfl

theorem takesStatement_expression (h : Takes 0 ts e)
    (hSemicolon : ∀ more, eat? .semicolon (ts ++ more) = none)
    (hBrace : ∀ more, eat? .openBrace (ts ++ more) = none)
    (hWord : ∀ more, ∀ found ∈ word? (ts ++ more), Unreserved found.value) :
    TakesStatement (ts ++ [⟨.symbol .semicolon, x⟩]) (.expression e) := by
  intro rest _
  have hRead := h (⟨.symbol .semicolon, x⟩ :: rest) rfl
  rw [List.append_assoc, List.singleton_append, statement]
  simp only [hSemicolon, hBrace]
  split
  · next hFound =>
    have hName : Unreserved "return" := hWord _ _ hFound
    exact absurd (by decide) hName
  · next hFound =>
    have hName : Unreserved "if" := hWord _ _ hFound
    exact absurd (by decide) hName
  · next name more less hFound =>
    simp only [(hWord _ _ hFound).ofWord?]
    refine hRead.bind fun _ => ?_
    exact reads_skipSemicolon _
  · refine hRead.bind fun _ => ?_
    exact reads_skipSemicolon _

end

/-! Reading back. -/

section

variable {ts : List Token} {lexemes : List Lexeme}

theorem atStatementEnd_of_opening (hSpells : Spells ts lexemes) (h : Opening Unreserved lexemes)
    (more : List Token) : atStatementEnd (ts ++ more) = false := by
  obtain ⟨first, rest, rfl, hFirst⟩ := h
  obtain ⟨x, us, rfl, -⟩ := spells_cons.mp hSpells
  rw [List.cons_append]
  unfold atStatementEnd
  split
  · next hSame =>
    cases hSame
    simp [Lexeme.Opens] at hFirst
  · next hSame =>
    cases hSame
    simp [Lexeme.Opens] at hFirst
  · next hSame =>
    cases hSame
    exact hFirst.elim
  · rfl

theorem word?_of_opening (hSpells : Spells ts lexemes) (h : Opening Unreserved lexemes)
    (more : List Token) : ∀ found ∈ word? (ts ++ more), Unreserved found.value := by
  obtain ⟨first, rest, rfl, hFirst⟩ := h
  obtain ⟨x, us, rfl, -⟩ := spells_cons.mp hSpells
  intro found hFound
  cases first with
  | identifier name =>
      cases hFound
      exact hFirst
  | _ => cases hFound

/-- Where an expression is kept apart, it does not begin with a brace. -/
theorem eat?_of_printApart {e : Expr} (h : e.WellFormed Unreserved) (hSpells : Spells ts e.printApart)
    (more : List Token) : eat? .openBrace (ts ++ more) = none := by
  obtain ⟨first, rest, hPrint, -⟩ := opening_print h
  unfold Expr.printApart at hSpells
  by_cases hBrace : e.print.head? = some (.symbol .openBrace)
  · rw [decide_eq_true hBrace] at hSpells
    obtain ⟨x, us, rfl, -⟩ := spells_cons.mp hSpells
    exact eat?_other (by decide)
  · rw [decide_eq_false hBrace, hPrint] at hSpells
    obtain ⟨x, us, rfl, -⟩ := spells_cons.mp hSpells
    rw [hPrint] at hBrace
    exact eat?_other fun hSame => hBrace (congrArg some hSame)

end

/-- What is printed behind the block of an `if` is read back if its own block is. -/
theorem readsBack_printElse {ss : List Statement}
    (hBlock : ∀ us, Spells us (printStatements ss) →
      ∃ found, bareStatements found = bareStatements ss ∧ TakesBlock us found)
    (ts : List Token) (hSpells : Spells ts (printElse ss)) :
    ∃ found, bareStatements found = bareStatements ss ∧ TakesElse ts found := by
  cases ss with
  | nil =>
      cases spells_nil.mp hSpells
      exact ⟨[], rfl, .inl ⟨rfl, rfl⟩⟩
  | cons s rest =>
      obtain ⟨x, _, rfl, hTail⟩ := spells_cons.mp hSpells
      obtain ⟨y, _, rfl, hInside⟩ := spells_cons.mp hTail
      obtain ⟨us, _, rfl, hus, hLast⟩ := spells_append.mp hInside
      obtain ⟨z, rfl⟩ := spells_single.mp hLast
      obtain ⟨found, hSame, hTakes⟩ := hBlock us hus
      exact ⟨found, hSame, .inr ⟨x, y, z, us, hTakes, rfl⟩⟩

mutual

/-- A printed statement is read back. -/
theorem readsBack_printStatement {s : Statement} (h : s.WellFormed) (ts : List Token)
    (hSpells : Spells ts s.print) :
    ∃ found : Statement, found.bare = s.bare ∧ TakesStatement ts found := by
  cases s with
  | declare kind name value =>
      cases value with
      | none =>
          obtain ⟨x, _, rfl, hTail⟩ := spells_cons.mp hSpells
          obtain ⟨y, _, rfl, hLast⟩ := spells_cons.mp hTail
          obtain ⟨z, rfl⟩ := spells_single.mp hLast
          exact ⟨_, rfl, takesStatement_declare kind name⟩
      | some e =>
          obtain ⟨x, _, rfl, hTail⟩ := spells_cons.mp hSpells
          obtain ⟨y, _, rfl, hValue⟩ := spells_cons.mp hTail
          obtain ⟨w, _, rfl, hInside⟩ := spells_cons.mp hValue
          obtain ⟨us, _, rfl, hus, hLast⟩ := spells_append.mp hInside
          obtain ⟨z, rfl⟩ := spells_single.mp hLast
          obtain ⟨e', hSame, hTakes⟩ := (readsBack_print (h e rfl)).whole us hus
          refine ⟨_, ?_, takesStatement_declare_value kind name hTakes⟩
          simp only [Statement.bare, Option.map_some, hSame]
  | giveBack value =>
      cases value with
      | none =>
          obtain ⟨x, _, rfl, hLast⟩ := spells_cons.mp hSpells
          obtain ⟨z, rfl⟩ := spells_single.mp hLast
          exact ⟨_, rfl, takesStatement_giveBack⟩
      | some e =>
          obtain ⟨x, _, rfl, hInside⟩ := spells_cons.mp hSpells
          obtain ⟨us, _, rfl, hus, hLast⟩ := spells_append.mp hInside
          obtain ⟨z, rfl⟩ := spells_single.mp hLast
          obtain ⟨e', hSame, hTakes⟩ := (readsBack_print (h e rfl)).whole us hus
          have hEnd := atStatementEnd_of_opening hus (opening_print (h e rfl))
          refine ⟨_, ?_, takesStatement_giveBack_value hTakes hEnd⟩
          simp only [Statement.bare, Option.map_some, hSame]
  | branch condition consequent alternate =>
      obtain ⟨hCondition, hConsequent, hAlternate⟩ := h
      obtain ⟨v, _, rfl, hTail⟩ := spells_cons.mp hSpells
      obtain ⟨w, _, rfl, hInside⟩ := spells_cons.mp hTail
      obtain ⟨us, _, rfl, hus, hBehind⟩ := spells_append.mp hInside
      obtain ⟨x, _, rfl, hBlock⟩ := spells_cons.mp hBehind
      obtain ⟨y, _, rfl, hBody⟩ := spells_cons.mp hBlock
      obtain ⟨vs, _, rfl, hvs, hRest⟩ := spells_append.mp hBody
      obtain ⟨z, ws, rfl, hws⟩ := spells_cons.mp hRest
      obtain ⟨condition', hFirst, hTakes⟩ := (readsBack_print hCondition).whole us hus
      obtain ⟨consequent', hSecond, hTakesSecond⟩ := readsBack_printStatements hConsequent vs hvs
      obtain ⟨alternate', hThird, hTakesThird⟩ :=
        readsBack_printElse (readsBack_printStatements hAlternate) ws hws
      refine ⟨_, ?_, takesStatement_branch hTakes hTakesSecond hTakesThird⟩
      simp only [Statement.bare, hFirst, hSecond, hThird]
  | block body =>
      obtain ⟨x, _, rfl, hInside⟩ := spells_cons.mp hSpells
      obtain ⟨us, _, rfl, hus, hLast⟩ := spells_append.mp hInside
      obtain ⟨y, rfl⟩ := spells_single.mp hLast
      obtain ⟨body', hSame, hTakes⟩ := readsBack_printStatements h us hus
      refine ⟨_, ?_, takesStatement_block hTakes⟩
      simp only [Statement.bare, hSame]
  | expression e =>
      obtain ⟨us, _, rfl, hus, hLast⟩ := spells_append.mp hSpells
      obtain ⟨x, rfl⟩ := spells_single.mp hLast
      obtain ⟨e', hSame, hTakes⟩ := (readsBack_print h).printApart us hus
      have hOpening := opening_printApart h
      have hSemicolon : ¬(Lexeme.symbol .semicolon).Opens Unreserved := by simp [Lexeme.Opens]
      refine ⟨_, ?_, takesStatement_expression hTakes (eat?_of_opening hus hOpening hSemicolon)
        (eat?_of_printApart h hus) (word?_of_opening hus hOpening)⟩
      simp only [Statement.bare, hSame]

/-- The same of the statements of a block. -/
theorem readsBack_printStatements {ss : List Statement} (h : WellFormedStatements ss)
    (ts : List Token) (hSpells : Spells ts (printStatements ss)) :
    ∃ found, bareStatements found = bareStatements ss ∧ TakesBlock ts found := by
  cases ss with
  | nil =>
      cases spells_nil.mp hSpells
      exact ⟨[], rfl, takesBlock_nil⟩
  | cons s rest =>
      obtain ⟨us, vs, rfl, hus, hvs⟩ := spells_append.mp hSpells
      obtain ⟨s', hSame, hTakes⟩ := readsBack_printStatement h.1 us hus
      obtain ⟨others, hOthers, hMore⟩ := readsBack_printStatements h.2 vs hvs
      have hElse (more : List Token) (hNext : NotElse more) : NotElse (vs ++ more) :=
        notElse_printStatements h.2 hvs hNext
      refine ⟨s' :: others, ?_, takesBlock_cons hus (starting_print h.1) hTakes hMore hElse⟩
      rw [bareStatements, bareStatements, hSame, hOthers]

end

/-! Whole texts. -/

/-- Printed statements are taken one after the other, up to what follows them. -/
theorem readsBack_program {ss : List Statement} (h : WellFormedStatements ss) (ts : List Token)
    (hSpells : Spells ts (printStatements ss)) :
    ∃ found, bareStatements found = bareStatements ss ∧ ∀ rest, NotElse rest →
      statements (ts ++ rest) = (statements rest).map (found ++ ·) := by
  induction ss generalizing ts with
  | nil =>
      cases spells_nil.mp hSpells
      refine ⟨[], rfl, fun rest _ => ?_⟩
      cases hRest : statements rest <;> simp [hRest, Except.map]
  | cons s ss ih =>
      obtain ⟨us, vs, rfl, hus, hvs⟩ := spells_append.mp hSpells
      obtain ⟨s', hSame, hTakes⟩ := readsBack_printStatement h.1 us hus
      obtain ⟨others, hOthers, hMore⟩ := ih h.2 vs hvs
      refine ⟨s' :: others, ?_, fun rest hRest => ?_⟩
      · rw [bareStatements, bareStatements, hSame, hOthers]
      · obtain ⟨less, hRead⟩ := hTakes (vs ++ rest) (notElse_printStatements h.2 hvs hRest)
        obtain ⟨first, lexemes, hFirst, -, hFinish, -⟩ := starting_print h.1
        rw [hFirst] at hus
        obtain ⟨x, us, rfl, -⟩ := spells_cons.mp hus
        have hHead : ¬Option.map (·.lexeme) (⟨first, x⟩ :: us ++ (vs ++ rest) : List Token).head? =
            some .finish := fun hEnd => hFinish (Option.some.inj hEnd)
        rw [List.append_assoc, statements, if_neg hHead, hRead]
        change (statements (vs ++ rest) >>= fun later => pure ([s'] ++ later)) = _
        rw [hMore rest hRest]
        cases statements rest <;> rfl

/-- Printing is undone by parsing, up to extents: of an expression, and of a list of
statements, whatever the extents of the printed tokens are. No token is left but the end of
the text, and a text with these tokens is read so. -/
theorem parse_print :
    (∀ e : Expr, e.WellFormed (fun _ => True) → ∀ ts, Spells ts e.print → ∀ x,
      ∃ found : Expr, found.bare = e.bare ∧
        Reads (assignment (ts ++ [⟨.finish, x⟩])) found [⟨.finish, x⟩] ∧
        ∀ source, parserTokens source = .ok (ts ++ [⟨.finish, x⟩]) →
          Expr.parse source = .ok found) ∧
    (∀ ss, WellFormedStatements ss → ∀ ts, Spells ts (printStatements ss) → ∀ x,
      ∃ found, bareStatements found = bareStatements ss ∧
        (∀ rest, NotElse rest → statements (ts ++ rest) = (statements rest).map (found ++ ·)) ∧
        statements (ts ++ [⟨.finish, x⟩]) = .ok found ∧
        ∀ source, parserTokens source = .ok (ts ++ [⟨.finish, x⟩]) →
          Statement.parseAll source = .ok found) := by
  constructor
  · intro e h ts hSpells x
    obtain ⟨found, hSame, hTakes⟩ := (readsBack_print h).whole ts hSpells
    have hRead := hTakes [⟨.finish, x⟩] rfl
    refine ⟨found, hSame, hRead, fun source hSource => ?_⟩
    obtain ⟨less, hRead⟩ := hRead
    rw [Expr.parse, hSource]
    simp only [bind, Except.bind, hRead]
    rfl
  · intro ss h ts hSpells x
    obtain ⟨found, hSame, hTakes⟩ := readsBack_program h ts hSpells
    have hWhole : statements (ts ++ [⟨.finish, x⟩]) = .ok found := by
      rw [hTakes _ (by rintro t ⟨⟩; exact Lexeme.noConfusion), statements]
      simp [Except.map, pure, Except.pure]
    refine ⟨found, hSame, hTakes, hWhole, fun source hSource => ?_⟩
    rw [Statement.parseAll, hSource]
    exact hWhole

/-- The tree of `(a ?? b) && !c`. -/
def guardExpr : Expr :=
  .binary .nowhere .and
    (.binary .nowhere .nullish (.identifier .nowhere "a") (.identifier .nowhere "b"))
    (.unary .nowhere .not (.identifier .nowhere "c"))

/-- The tokens of its text. -/
def guardTokens : List Token := [
  ⟨.symbol .openParen, ⟨0, 1⟩⟩, ⟨.identifier "a", ⟨1, 2⟩⟩, ⟨.symbol .questionQuestion, ⟨3, 5⟩⟩,
  ⟨.identifier "b", ⟨6, 7⟩⟩, ⟨.symbol .closeParen, ⟨7, 8⟩⟩, ⟨.symbol .and, ⟨9, 11⟩⟩,
  ⟨.symbol .not, ⟨12, 13⟩⟩, ⟨.identifier "c", ⟨13, 14⟩⟩]

/-- The tree of a statement that would begin with a brace, and of a return. -/
def fieldStatements : List Statement := [
  .expression (.member .nowhere (.object .nowhere [.mk "a" (.identifier .nowhere "a") true])
    (.string .nowhere "b") false false),
  .giveBack none]

/-- The tokens of their text. -/
def fieldTokens : List Token := [
  ⟨.symbol .openParen, ⟨0, 1⟩⟩, ⟨.symbol .openBrace, ⟨1, 2⟩⟩, ⟨.identifier "a", ⟨2, 3⟩⟩,
  ⟨.symbol .closeBrace, ⟨3, 4⟩⟩, ⟨.symbol .dot, ⟨4, 5⟩⟩, ⟨.identifier "b", ⟨5, 6⟩⟩,
  ⟨.symbol .closeParen, ⟨6, 7⟩⟩, ⟨.symbol .semicolon, ⟨7, 8⟩⟩, ⟨.identifier "return", ⟨9, 15⟩⟩,
  ⟨.symbol .semicolon, ⟨15, 16⟩⟩]

theorem tokens_guard :
    parserTokens "(a ?? b) && !c" = .ok (guardTokens ++ [⟨.finish, ⟨14, 14⟩⟩]) :=
  toOption_eq_some.mp (by decide +kernel)

theorem tokens_field :
    parserTokens "(\x7ba\x7d.b); return;" = .ok (fieldTokens ++ [⟨.finish, ⟨16, 16⟩⟩]) :=
  toOption_eq_some.mp (by decide +kernel)

theorem parse_print_guard_field :
    (∃ found : Expr, found.bare = guardExpr.bare ∧ Expr.parse "(a ?? b) && !c" = .ok found) ∧
    ∃ found, bareStatements found = bareStatements fieldStatements ∧
      Statement.parseAll "(\x7ba\x7d.b); return;" = .ok found := by
  have hExpr : guardExpr.WellFormed (fun _ => True) := by simp [guardExpr, Expr.WellFormed]
  have hStatements : WellFormedStatements fieldStatements := by
    simp [fieldStatements, WellFormedStatements, Statement.WellFormed, Expr.WellFormed,
      WellFormedProperties, Property.WellFormed, Expr.IsVariable, Expr.IsName]
  have hSpellsGuard : Spells guardTokens guardExpr.print := by decide +kernel
  have hSpellsField : Spells fieldTokens (printStatements fieldStatements) := by decide +kernel
  obtain ⟨e, hSame, -, hParse⟩ := parse_print.1 guardExpr hExpr guardTokens hSpellsGuard ⟨14, 14⟩
  obtain ⟨ss, hAll, -, -, hProgram⟩ :=
    parse_print.2 fieldStatements hStatements fieldTokens hSpellsField ⟨16, 16⟩
  exact ⟨⟨e, hSame, hParse _ tokens_guard⟩, ⟨ss, hAll, hProgram _ tokens_field⟩⟩

end HtmlTemplate.Script
