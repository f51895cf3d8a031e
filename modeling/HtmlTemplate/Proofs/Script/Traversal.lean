import HtmlTemplate.Proofs.Script.Grammar

/-! What the grammar of expressions goes over. An expression is operands with something between
them, and its braces are closed; a property of the tokens left that goes back over each kind
of token an expression has at its place goes back over whole expressions. -/
namespace HtmlTemplate.Script

/-- A lexeme that is an expression, -/
def Lexeme.IsOperand : Lexeme → Prop
  | .number _ | .string _ | .boolean _ | .null | .undefined | .identifier _ | .reference _ => True
  | _ => False

/-- one that can stand behind a dot, -/
def Lexeme.IsName : Lexeme → Prop
  | .identifier _ | .boolean _ | .null | .undefined | .typeof => True
  | _ => False

/-- and a symbol with an expression on either side. -/
def Symbol.Joins (s : Symbol) : Prop :=
  (BinaryOp.ofSymbol? s).isSome ∨ (AssignOp.ofSymbol? s).isSome ∨ s ∈ [.question, .colon, .comma]

/-- Two properties of the tokens that are left in the midst of an expression, in front of an
operand and behind one, where some number of braces is open. They go back over each token
that an expression can have there. -/
structure Tracks (front behind : Nat → List Token → Prop) : Prop where
  operand {n : Nat} {t : Token} {rest : List Token} (ht : t.lexeme.IsOperand)
    (h : behind n rest) : front n (t :: rest)
  sign {n : Nat} {t : Token} {rest : List Token} (ht : (UnaryOp.ofLexeme? t.lexeme).isSome)
    (h : front n rest) : front n (t :: rest)
  join {n : Nat} {s : Symbol} {x : Extent} {rest : List Token} (hs : s.Joins)
    (h : front n rest) : behind n (⟨.symbol s, x⟩ :: rest)
  member {n : Nat} {s : Symbol} {x : Extent} {t : Token} {rest : List Token}
    (hs : s ∈ [.dot, .optionalChain]) (ht : t.lexeme.IsName) (h : behind n rest) :
    behind n (⟨.symbol s, x⟩ :: t :: rest)
  step {n : Nat} {s : Symbol} {x : Extent} {rest : List Token}
    (hs : s ∈ [.plusPlus, .minusMinus]) (h : behind n rest) : behind n (⟨.symbol s, x⟩ :: rest)
  opening {n : Nat} {s : Symbol} {x : Extent} {rest : List Token}
    (hs : s ∈ [.openParen, .openBracket]) (h : front n rest) :
    front n (⟨.symbol s, x⟩ :: rest) ∧ behind n (⟨.symbol s, x⟩ :: rest)
  closing {n : Nat} {s : Symbol} {x : Extent} {rest : List Token}
    (hs : s ∈ [.closeParen, .closeBracket]) (h : behind n rest) :
    front n (⟨.symbol s, x⟩ :: rest) ∧ behind n (⟨.symbol s, x⟩ :: rest)
  openBrace {n : Nat} {x : Extent} {rest : List Token} (h : front (n + 1) rest) :
    front n (⟨.symbol .openBrace, x⟩ :: rest)
  closeBrace {n : Nat} {x : Extent} {rest : List Token} (h : behind n rest) :
    front (n + 1) (⟨.symbol .closeBrace, x⟩ :: rest) ∧
      behind (n + 1) (⟨.symbol .closeBrace, x⟩ :: rest)

theorem isOperand_of_operand? {t : Token} {e : Expr} (h : t.operand? = some e) :
    t.lexeme.IsOperand := by
  obtain ⟨lexeme, x⟩ := t
  cases lexeme <;> trivial

theorem isOperand_of_propertyKey? {lexeme : Lexeme} {key : String}
    (h : propertyKey? lexeme = some key) : lexeme.IsOperand := by
  cases lexeme <;> trivial

theorem isName_of_memberName? {lexeme : Lexeme} {name : String}
    (h : lexeme.memberName? = some name) : lexeme.IsName := by
  cases lexeme <;> trivial

theorem mem_of_stepOp {s : Symbol} {op : StepOp} (h : StepOp.ofSymbol? s = some op) :
    s ∈ [.plusPlus, .minusMinus] := by
  cases s <;> first | decide | cases h

/-- A property of what is left behind a phrase goes back to what the phrase is read from. The
properties of an object take the brace along that closes it. -/
def Phrase.Leads (front behind : Nat → List Token → Prop) (ts rest : List Token) : Phrase → Prop
  | .expression _ | .property _ => ∀ n, behind n rest → front n ts
  | .items close _ _ => close ∈ [.closeParen, .closeBracket] → ∀ n, behind n rest → front n ts
  | .properties _ _ => ∀ n, behind n rest → front (n + 1) ts

theorem Derives.leads {front behind : Nat → List Token → Prop} (hTracks : Tracks front behind)
    {phrase : Phrase} {ts rest : List Token} (h : Derives ts phrase rest) :
    phrase.Leads front behind ts rest := by
  induction h with
  | operand hOperand => exact fun n => hTracks.operand (isOperand_of_operand? hOperand)
  | parenthesised _ ih =>
      exact fun n hn => (hTracks.opening (by simp) (ih n (hTracks.closing (by simp) hn).2)).1
  | array _ ih => exact fun n hn => (hTracks.opening (by simp) (ih (by simp) n hn)).1
  | object _ ih => exact fun n hn => hTracks.openBrace (ih n hn)
  | unary hOp _ ih => exact fun n hn => hTracks.sign (by simp [hOp]) (ih n hn)
  | binary _ hOp _ ihLeft ihRight =>
      exact fun n hn => ihLeft n (hTracks.join (.inl (by simp [hOp])) (ihRight n hn))
  | conditional _ _ _ ihCondition ihConsequent ihAlternate =>
      have hJoins : Symbol.Joins .question ∧ Symbol.Joins .colon := by simp [Symbol.Joins]
      intro n hn
      refine ihCondition n (hTracks.join hJoins.1 (ihConsequent n ?_))
      exact hTracks.join hJoins.2 (ihAlternate n hn)
  | assign _ hOp _ ihTarget ihValue =>
      exact fun n hn => ihTarget n (hTracks.join (.inr (.inl (by simp [hOp]))) (ihValue n hn))
  | member _ hs hName ih =>
      exact fun n hn => ih n (hTracks.member hs (isName_of_memberName? hName) hn)
  | index _ _ ih ihProperty =>
      intro n hn
      exact ih n (hTracks.opening (by simp) (ihProperty n (hTracks.closing (by simp) hn).2)).2
  | call _ _ ih ihItems =>
      exact fun n hn => ih n (hTracks.opening (by simp) (ihItems (by simp) n hn)).2
  | step _ hOp ih => exact fun n hn => ih n (hTracks.step (mem_of_stepOp hOp) hn)
  | noItem => exact fun hClose n hn => (hTracks.closing hClose hn).1
  | lastItem _ ih => exact fun hClose n hn => ih n (hTracks.closing hClose hn).2
  | item _ _ ih ihMore =>
      exact fun hClose n hn => ih n (hTracks.join (by simp [Symbol.Joins]) (ihMore hClose n hn))
  | noProperty => exact fun n hn => (hTracks.closeBrace hn).1
  | lastProperty _ ih => exact fun n hn => ih (n + 1) (hTracks.closeBrace hn).2
  | nextProperty _ _ ih ihMore =>
      exact fun n hn => ih (n + 1) (hTracks.join (by simp [Symbol.Joins]) (ihMore n hn))
  | property hKey _ ih =>
      intro n hn
      refine hTracks.operand (isOperand_of_propertyKey? hKey) ?_
      exact hTracks.join (by simp [Symbol.Joins]) (ih n hn)
  | shorthand hKey => exact fun n => hTracks.operand (isOperand_of_propertyKey? hKey)

end HtmlTemplate.Script
