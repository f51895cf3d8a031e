import HtmlTemplate.Proofs.Script.StatementGrammar
import HtmlTemplate.Proofs.Script.Traversal
import HtmlTemplate.Proofs.Source.Brackets

/-! Braces in script text. The braces among the tokens of whatever the parser of statements
accepts are balanced: those of its blocks and those of its objects. -/
namespace HtmlTemplate.Script

def Lexeme.opensBrace : Lexeme → Bool
  | .symbol .openBrace => true
  | _ => false

def Lexeme.closesBrace : Lexeme → Bool
  | .symbol .closeBrace => true
  | _ => false

/-- Whether lexemes close the braces they open and `n` others. -/
def Braced (n : Nat) (lexemes : List Lexeme) : Prop :=
  Balances Lexeme.opensBrace Lexeme.closesBrace n lexemes

/-- Whether tokens do so up to the end of the text. -/
def Nested (n : Nat) (ts : List Token) : Prop :=
  Braced n ((ts.map (·.lexeme)).takeWhile (· ≠ .finish))

section

variable {n : Nat} {x : Extent} {t : Token} {rest : List Token}

theorem nested_finish : Nested 0 (⟨.finish, x⟩ :: rest) := by
  simp [Nested, Braced, balances_nil_iff]

theorem nested_other (hFinish : t.lexeme ≠ .finish) (hOpens : t.lexeme.opensBrace = false)
    (hCloses : t.lexeme.closesBrace = false) : Nested n (t :: rest) ↔ Nested n rest := by
  rw [Nested, List.map_cons, List.takeWhile_cons_of_pos (by simpa using hFinish)]
  exact balances_of_neither hOpens hCloses

theorem nested_openBrace :
    Nested n (⟨.symbol .openBrace, x⟩ :: rest) ↔ Nested (n + 1) rest := by
  rw [Nested, List.map_cons, List.takeWhile_cons_of_pos (by simp)]
  exact balances_of_opens rfl rfl

theorem nested_closeBrace :
    Nested (n + 1) (⟨.symbol .closeBrace, x⟩ :: rest) ↔ Nested n rest := by
  rw [Nested, List.map_cons, List.takeWhile_cons_of_pos (by simp)]
  exact balances_of_closes rfl rfl

/-- A symbol that is no brace. -/
theorem nested_symbol {s : Symbol} (h : s ≠ .openBrace ∧ s ≠ .closeBrace) :
    Nested n (⟨.symbol s, x⟩ :: rest) ↔ Nested n rest := by
  refine nested_other (by simp) ?_ ?_
  · cases s <;> first | rfl | exact absurd rfl h.1
  · cases s <;> first | rfl | exact absurd rfl h.2

theorem nested_identifier {name : String} :
    Nested n (⟨.identifier name, x⟩ :: rest) ↔ Nested n rest :=
  nested_other (by simp) rfl rfl

end

/-- Balance goes back over expressions. -/
theorem nested_tracks : Tracks Nested Nested where
  operand {n t rest} ht hn := by
    obtain ⟨lexeme, x⟩ := t
    refine (nested_other ?_ ?_ ?_).mpr hn <;>
      cases lexeme <;> first | rfl | exact ht.elim | simp
  sign {n t rest} ht hn := by
    obtain ⟨lexeme, x⟩ := t
    cases lexeme with
    | symbol s => exact (nested_symbol (by cases s <;> simp_all [UnaryOp.ofLexeme?])).mpr hn
    | typeof => exact (nested_other (by simp) rfl rfl).mpr hn
    | _ => cases ht
  join {n s x rest} hs hn := by
    refine (nested_symbol ?_).mpr hn
    cases s <;> simp_all [Symbol.Joins, BinaryOp.ofSymbol?, AssignOp.ofSymbol?]
  member {n s x t rest} hs ht hn := by
    obtain ⟨lexeme, y⟩ := t
    refine (nested_symbol (by cases s <;> simp_all)).mpr ((nested_other ?_ ?_ ?_).mpr hn) <;>
      cases lexeme <;> first | rfl | exact ht.elim | simp
  step {n s x rest} hs hn := (nested_symbol (by cases s <;> simp_all)).mpr hn
  opening {n s x rest} hs hn := by
    have h : Nested n (⟨.symbol s, x⟩ :: rest) := (nested_symbol (by cases s <;> simp_all)).mpr hn
    exact ⟨h, h⟩
  closing {n s x rest} hs hn := by
    have h : Nested n (⟨.symbol s, x⟩ :: rest) := (nested_symbol (by cases s <;> simp_all)).mpr hn
    exact ⟨h, h⟩
  openBrace hn := nested_openBrace.mpr hn
  closeBrace hn := ⟨nested_closeBrace.mpr hn, nested_closeBrace.mpr hn⟩

theorem Derives.nested {n : Nat} {e : Expr} {ts rest : List Token}
    (h : Derives ts (.expression e) rest) (hRest : Nested n rest) : Nested n ts :=
  h.leads nested_tracks n hRest

/-! Statements. -/

/-- Balance goes back from what is left behind a clause. A block takes the brace along that closes
it. -/
def Clause.Nests (ts rest : List Token) : Clause → Prop
  | .block _ => ∀ n, Nested n rest → Nested (n + 1) ts
  | .statement _ | .branch _ | .value _ | .declarations .. => ∀ n, Nested n rest → Nested n ts

theorem DerivesClause.nests {clause : Clause} {ts rest : List Token}
    (h : DerivesClause ts clause rest) : clause.Nests ts rest := by
  have hSymbol {n : Nat} {s : Symbol} {x : Extent} {rest : List Token}
      (hs : s ≠ .openBrace ∧ s ≠ .closeBrace) (hRest : Nested n rest) :
      Nested n (⟨.symbol s, x⟩ :: rest) := (nested_symbol hs).mpr hRest
  induction h with
  | empty => exact fun n => hSymbol (by decide)
  | block _ ih => exact fun n hn => nested_openBrace.mpr (ih n hn)
  | giveBackNothing => exact fun n => nested_identifier.mpr
  | giveBack hValue => exact fun n hn => nested_identifier.mpr (hValue.nested hn)
  | branch hCondition _ ihConsequent =>
      intro n hn
      have hClosed := hCondition.nested (hSymbol (by decide) (ihConsequent n hn))
      exact nested_identifier.mpr (hSymbol (by decide) hClosed)
  | branchElse hCondition _ _ ihConsequent ihAlternate =>
      intro n hn
      have hElse := ihConsequent n (nested_identifier.mpr (ihAlternate n hn))
      have hClosed := hCondition.nested (hSymbol (by decide) hElse)
      exact nested_identifier.mpr (hSymbol (by decide) hClosed)
  | declare _ _ ih => exact fun n hn => nested_identifier.mpr (ih n hn)
  | expression he => exact fun n => he.nested
  | semicolon _ ih => exact fun n hn => ih n (hSymbol (by decide) hn)
  | braced _ ih => exact fun n hn => nested_openBrace.mpr (ih n hn)
  | single _ ih => exact ih
  | close => exact fun n => nested_closeBrace.mpr
  | next _ _ ih ihOthers => exact fun n hn => ih (n + 1) (ihOthers n hn)
  | noValue => exact fun n => id
  | value he => exact fun n hn => hSymbol (by decide) (he.nested hn)
  | lastVariable _ ih => exact fun n hn => nested_identifier.mpr (ih n hn)
  | nextVariable _ _ ih ihMore =>
      exact fun n hn => nested_identifier.mpr (ih n (hSymbol (by decide) (ihMore n hn)))

theorem DerivesProgram.nested {ts : List Token} {body : List Statement}
    (h : DerivesProgram ts body) : Nested 0 ts := by
  induction h with
  | finish => exact nested_finish
  | next hFound _ ih => exact hFound.nests 0 ih

/-- Braces are balanced in whatever is a list of statements. -/
theorem nested_of_statements {ts : List Token} {body : List Statement}
    (h : statements ts = .ok body) : Nested 0 ts :=
  ((statements_yields (List.suffix_refl ts)).of_ok h).nested

end HtmlTemplate.Script
