import HtmlTemplate.Proofs.Script.Grammar

/-! The grammar of statements, and what the parsers of statements make of tokens. A semicolon may
stand behind any statement, so that more can be derived than is read. -/
namespace HtmlTemplate.Script

/-- What tokens are read as: a statement, or the empty one; what an `if` governs; what stands behind
the brace that opens a block; the value of a variable, if it is given one; or declared variables. -/
inductive Clause where
  | statement (found : Option Statement)
  | branch (body : List Statement)
  | block (body : List Statement)
  | value (e : Option Expr)
  | declarations (kind : Declaration) (declared : List Statement)

/-- Tokens begin with a clause, and others are left behind it. -/
inductive DerivesClause : List Token → Clause → List Token → Prop where
  | empty {x : Extent} {rest : List Token} :
    DerivesClause (⟨.symbol .semicolon, x⟩ :: rest) (.statement none) rest
  | block {x : Extent} {body : List Statement} {ts rest : List Token}
    (h : DerivesClause ts (.block body) rest) :
    DerivesClause (⟨.symbol .openBrace, x⟩ :: ts) (.statement (some (.block body))) rest
  | giveBackNothing {x : Extent} {rest : List Token} :
    DerivesClause (⟨.identifier "return", x⟩ :: rest) (.statement (some (.giveBack none))) rest
  | giveBack {x : Extent} {e : Expr} {ts rest : List Token}
    (h : Derives ts (.expression e) rest) :
    DerivesClause (⟨.identifier "return", x⟩ :: ts) (.statement (some (.giveBack (some e)))) rest
  | branch {x y z : Extent} {condition : Expr} {consequent : List Statement}
    {ts more rest : List Token}
    (hCondition : Derives ts (.expression condition) (⟨.symbol .closeParen, z⟩ :: more))
    (hConsequent : DerivesClause more (.branch consequent) rest) :
    DerivesClause (⟨.identifier "if", x⟩ :: ⟨.symbol .openParen, y⟩ :: ts)
      (.statement (some (.branch condition consequent []))) rest
  | branchElse {x y z w : Extent} {condition : Expr} {consequent alternate : List Statement}
    {ts more others rest : List Token}
    (hCondition : Derives ts (.expression condition) (⟨.symbol .closeParen, z⟩ :: more))
    (hConsequent : DerivesClause more (.branch consequent) (⟨.identifier "else", w⟩ :: others))
    (hAlternate : DerivesClause others (.branch alternate) rest) :
    DerivesClause (⟨.identifier "if", x⟩ :: ⟨.symbol .openParen, y⟩ :: ts)
      (.statement (some (.branch condition consequent alternate))) rest
  | declare {word : String} {x : Extent} {kind : Declaration} {declared : List Statement}
    {ts rest : List Token} (hKind : Declaration.ofWord? word = some kind)
    (h : DerivesClause ts (.declarations kind declared) rest) :
    DerivesClause (⟨.identifier word, x⟩ :: ts)
      (.statement (some (declarationStatement declared))) rest
  | expression {e : Expr} {ts rest : List Token} (h : Derives ts (.expression e) rest) :
    DerivesClause ts (.statement (some (.expression e))) rest
  | semicolon {x : Extent} {found : Option Statement} {ts rest : List Token}
    (h : DerivesClause ts (.statement found) (⟨.symbol .semicolon, x⟩ :: rest)) :
    DerivesClause ts (.statement found) rest
  | braced {x : Extent} {body : List Statement} {ts rest : List Token}
    (h : DerivesClause ts (.block body) rest) :
    DerivesClause (⟨.symbol .openBrace, x⟩ :: ts) (.branch body) rest
  | single {found : Option Statement} {ts rest : List Token}
    (h : DerivesClause ts (.statement found) rest) :
    DerivesClause ts (.branch found.toList) rest
  | close {x : Extent} {rest : List Token} :
    DerivesClause (⟨.symbol .closeBrace, x⟩ :: rest) (.block []) rest
  | next {found : Option Statement} {others : List Statement} {ts more rest : List Token}
    (h : DerivesClause ts (.statement found) more)
    (hOthers : DerivesClause more (.block others) rest) :
    DerivesClause ts (.block (found.toList ++ others)) rest
  | noValue {ts : List Token} : DerivesClause ts (.value none) ts
  | value {x : Extent} {e : Expr} {ts rest : List Token} (h : Derives ts (.expression e) rest) :
    DerivesClause (⟨.symbol .eq, x⟩ :: ts) (.value (some e)) rest
  | lastVariable {name : String} {x : Extent} {kind : Declaration} {value : Option Expr}
    {ts rest : List Token} (h : DerivesClause ts (.value value) rest) :
    DerivesClause (⟨.identifier name, x⟩ :: ts) (.declarations kind [.declare kind name value]) rest
  | nextVariable {name : String} {x y : Extent} {kind : Declaration} {value : Option Expr}
    {declared : List Statement} {ts more rest : List Token}
    (h : DerivesClause ts (.value value) (⟨.symbol .comma, y⟩ :: more))
    (hMore : DerivesClause more (.declarations kind declared) rest) :
    DerivesClause (⟨.identifier name, x⟩ :: ts)
      (.declarations kind (.declare kind name value :: declared)) rest

/-- Statements up to the end of the text. -/
inductive DerivesProgram : List Token → List Statement → Prop where
  | finish {x : Extent} {rest : List Token} : DerivesProgram (⟨.finish, x⟩ :: rest) []
  | next {found : Option Statement} {others : List Statement} {ts rest : List Token}
    (h : DerivesClause ts (.statement found) rest) (hOthers : DerivesProgram rest others) :
    DerivesProgram ts (found.toList ++ others)

/-! The parsers keep to the grammar, each by the parsers it goes on with. -/

theorem Parses.skipSemicolon {bound : Nat} {found : Option Statement} {whole ts rest : List Token}
    {less : rest.length < bound} (h : DerivesClause ts (.statement found) rest)
    (hRest : rest <:+ whole) :
    Parses whole (fun found => DerivesClause ts (.statement found))
      (Except.ok (Script.skipSemicolon (⟨found, rest, less⟩ : Parsed bound (Option Statement)))) := by
  unfold Script.skipSemicolon
  split
  · next x more less hEaten =>
    have hSame : rest = _ := eat?_eq_some hEaten
    rw [hSame] at h hRest
    exact .value (.semicolon h) (suffix_tail hRest)
  · exact .value h hRest

theorem declarations_parses (kind : Declaration) {whole ts : List Token} (h : ts <:+ whole) :
    Parses whole (fun declared => DerivesClause ts (.declarations kind declared))
      (declarations kind ts) := by
  rw [declarations.eq_def]
  split
  · next name extent rest =>
    extract_lets next
    -- what follows the value of the variable, if it is given one
    have hNext (value : Option Expr) (rest₁ : List Token) (less₁ : rest₁.length < rest.length + 1)
        (hValue : DerivesClause rest (.value value) rest₁) (hRest₁ : rest₁ <:+ whole) :
        Parses whole (fun declared => DerivesClause (⟨.identifier name, extent⟩ :: rest)
          (.declarations kind declared)) (next ⟨value, rest₁, less₁⟩) := by
      dsimp only [next]
      split
      · next x rest₂ less₂ hEaten =>
        rw [eat?_eq_some hEaten] at hValue hRest₁
        refine (declarations_parses kind (suffix_tail hRest₁)).bind
          fun more rest₃ less₃ hMore hRest₃ => ?_
        exact .value (.nextVariable hValue hMore) hRest₃
      · exact .value (.lastVariable hValue) hRest₁
    have hRest : rest <:+ whole := suffix_tail h
    split
    · next x rest₁ less₁ hEaten =>
      have hSame : rest = _ := eat?_eq_some hEaten
      rw [hSame] at hRest
      refine (assignment_parses (suffix_tail hRest)).bind fun e rest₂ less₂ he hRest₂ => ?_
      exact hNext (some e) rest₂ (by omega) (hSame ▸ .value he) hRest₂
    · exact hNext none rest _ .noValue hRest
  · exact .unexpected h _
termination_by ts.length
decreasing_by subst_vars; simp only [List.length_cons]; omega

mutual

theorem statement_parses {whole ts : List Token} (h : ts <:+ whole) :
    Parses whole (fun found => DerivesClause ts (.statement found)) (statement ts) := by
  have hExpression : Parses whole (fun found => DerivesClause ts (.statement found)) (do
      let ⟨e, rest, less⟩ ← assignment ts
      return skipSemicolon ⟨some (.expression e), rest, less⟩) :=
    (assignment_parses h).bind fun e rest less he hRest => .skipSemicolon (.expression he) hRest
  rw [statement]
  split
  · next x rest less hEaten =>
    have hSame : ts = _ := eat?_eq_some hEaten
    rw [hSame] at h
    exact .value (hSame ▸ .empty) (suffix_tail h)
  split
  · next x rest less hEaten =>
    have hSame : ts = _ := eat?_eq_some hEaten
    rw [hSame] at h
    refine (block_parses (suffix_tail h)).bind fun body last less' hBody hLast => ?_
    exact .value (hSame ▸ .block hBody) hLast
  split
  · next rest less hWord =>
    obtain ⟨x, hSame⟩ := word?_eq_some hWord
    rw [hSame] at h
    split
    · exact .skipSemicolon (hSame ▸ .giveBackNothing) (suffix_tail h)
    · refine (assignment_parses (suffix_tail h)).bind fun value last less' hValue hLast => ?_
      exact .skipSemicolon (hSame ▸ .giveBack hValue) hLast
  · next rest less hWord =>
    obtain ⟨x, hSame⟩ := word?_eq_some hWord
    rw [hSame] at h
    refine (Parses.expect (suffix_tail h) _ _).bind fun y rest₁ less₁ hOpen hRest₁ => ?_
    rw [hOpen] at hSame
    refine (assignment_parses hRest₁).bind fun condition rest₂ less₂ hCondition hRest₂ => ?_
    refine (Parses.expect hRest₂ _ _).bind fun z rest₃ less₃ hClose hRest₃ => ?_
    rw [hClose] at hCondition
    refine (branch_parses hRest₃).bind fun consequent rest₄ less₄ hConsequent hRest₄ => ?_
    dsimp only
    split
    · next rest₅ less₅ hElse =>
      obtain ⟨w, hSame₄⟩ := word?_eq_some hElse
      rw [hSame₄] at hConsequent hRest₄
      refine (branch_parses (suffix_tail hRest₄)).bind
        fun alternate rest₆ less₆ hAlternate hRest₆ => ?_
      exact .value (hSame ▸ .branchElse hCondition hConsequent hAlternate) hRest₆
    · exact .value (hSame ▸ .branch hCondition hConsequent) hRest₄
  · next name rest less _ _ hWord =>
    obtain ⟨x, hSame⟩ := word?_eq_some hWord
    split
    · next kind hKind =>
      rw [hSame] at h
      refine (declarations_parses kind (suffix_tail h)).bind
        fun declared last less' hDeclared hLast => ?_
      exact .skipSemicolon (hSame ▸ .declare hKind hDeclared) hLast
    · exact hExpression
  · exact hExpression
termination_by (ts.length, 0)

theorem branch_parses {whole ts : List Token} (h : ts <:+ whole) :
    Parses whole (fun body => DerivesClause ts (.branch body)) (branch ts) := by
  rw [branch]
  split
  · next x rest less hEaten =>
    have hSame : ts = _ := eat?_eq_some hEaten
    rw [hSame] at h
    refine (block_parses (suffix_tail h)).bind fun body last less' hBody hLast => ?_
    exact .value (hSame ▸ .braced hBody) hLast
  · exact (statement_parses h).bind fun found rest less hFound hRest => .value (.single hFound) hRest
termination_by (ts.length, 1)

theorem block_parses {whole ts : List Token} (h : ts <:+ whole) :
    Parses whole (fun body => DerivesClause ts (.block body)) (block ts) := by
  rw [block]
  split
  · next x rest less hEaten =>
    have hSame : ts = _ := eat?_eq_some hEaten
    rw [hSame] at h
    exact .value (hSame ▸ .close) (suffix_tail h)
  · split
    · exact .unexpected h _
    · refine (statement_parses h).bind fun found rest less hFound hRest => ?_
      refine (block_parses hRest).bind fun others last less' hOthers hLast => ?_
      exact .value (.next hFound hOthers) hLast
termination_by (ts.length, 1)

end

/-- What is read as statements can be derived. -/
theorem statements_yields {whole ts : List Token} (h : ts <:+ whole) :
    Yields whole (DerivesProgram ts) (statements ts) := by
  rw [statements]
  split
  · next hFinish =>
    obtain ⟨t, rest, rfl⟩ := List.exists_cons_of_ne_nil
      (show ts ≠ [] by rintro rfl; cases hFinish)
    obtain ⟨lexeme, x⟩ := t
    cases hFinish
    exact .finish
  · refine Yields.bind (statement_parses h) ?_
    rintro ⟨found, rest, less⟩ ⟨hFound, hRest⟩
    refine (statements_yields hRest).bind fun others hOthers => ?_
    exact .next hFound hOthers
termination_by ts.length

end HtmlTemplate.Script
