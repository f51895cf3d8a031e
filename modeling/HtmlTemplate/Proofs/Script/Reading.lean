import HtmlTemplate.Proofs.Result
import HtmlTemplate.Proofs.Script.Printing

/-! What the parsers take of the tokens before them. Tokens are taken for an expression at a
level: what follows them may go on with an expression of that level, but not with one of a
lower level, which is what the parentheses of a printed tree see to. There is one law for
each kind of expression. -/
namespace HtmlTemplate.Script

/-! A parser that succeeds. -/

/-- A parser gives a value and leaves some tokens. -/
def Reads {bound : Nat} {α : Type} (x : Except ParseError (Parsed bound α)) (a : α)
    (rest : List Token) : Prop :=
  ∃ less, x = .ok ⟨a, rest, less⟩

section

variable {bound inner : Nat} {α β : Type} {a : α} {b : β} {rest more : List Token}

theorem reads_ok (less : rest.length < bound) :
    Reads (pure (⟨a, rest, less⟩ : Parsed bound α)) a rest :=
  ⟨less, rfl⟩

theorem Reads.bind {x : Except ParseError (Parsed inner α)}
    {f : Parsed inner α → Except ParseError (Parsed bound β)} (h : Reads x a more)
    (hNext : ∀ less, Reads (f ⟨a, more, less⟩) b rest) : Reads (x >>= f) b rest := by
  obtain ⟨less, rfl⟩ := h
  exact hNext less

end

/-! Single tokens. -/

section

variable {x : Extent} {rest : List Token} {s : Symbol}

theorem reads_expect (expected : String) : Reads (expect s expected (⟨.symbol s, x⟩ :: rest)) x rest := by
  simp only [expect, if_pos]
  exact reads_ok _

theorem eat?_same : eat? s (⟨.symbol s, x⟩ :: rest) = some ⟨x, rest, Nat.lt_succ_self _⟩ := by
  simp only [eat?, if_pos]

theorem eat?_other {lexeme : Lexeme} (h : lexeme ≠ .symbol s) : eat? s (⟨lexeme, x⟩ :: rest) = none := by
  cases lexeme with
  | symbol found =>
      have hOther : found ≠ s := fun hSame => h (congrArg Lexeme.symbol hSame)
      simp only [eat?, if_neg hOther]
  | _ => rfl

theorem eat?_symbol {found : Symbol} (h : found ≠ s) : eat? s (⟨.symbol found, x⟩ :: rest) = none :=
  eat?_other fun hSame => h (Lexeme.symbol.inj hSame)

/-- A name behind a dot may be any word. -/
theorem reads_propertyName (name : String) :
    Reads (propertyName (⟨wordLexeme name.toList, x⟩ :: rest)) (.string x name) rest := by
  generalize hWord : wordLexeme name.toList = lexeme
  rw [wordLexeme, String.ofList_toList] at hWord
  split at hWord <;> subst hWord <;> exact reads_ok _

end

/-! What follows an expression. -/

/-- The level of the expressions that a symbol goes on from. -/
def Symbol.reach : Symbol → Nat
  | .dot | .optionalChain | .openBracket | .openParen | .plusPlus | .minusMinus => 10
  | .question => 2
  | s =>
    match BinaryOp.ofSymbol? s, AssignOp.ofSymbol? s with
    | some op, _ => op.precedence + 1
    | none, some _ => 1
    | none, none => 0

/-- The level of the expressions that some tokens go on from. -/
def reach : List Token → Nat
  | ⟨.symbol s, _⟩ :: _ => s.reach
  | _ => 0

theorem BinaryOp.reach_symbol (op : BinaryOp) : op.symbol.reach = op.precedence + 1 := by
  cases op <;> rfl

theorem AssignOp.reach_symbol (op : AssignOp) : op.symbol.reach = 1 := by
  cases op <;> rfl

theorem reach_of_binary {s : Symbol} {op : BinaryOp} (h : BinaryOp.ofSymbol? s = some op) :
    s.reach = op.precedence + 1 := by
  cases s <;> cases h <;> rfl

theorem reach_of_assign {s : Symbol} {op : AssignOp} (h : AssignOp.ofSymbol? s = some op) :
    s.reach = 1 := by
  cases s <;> cases h <;> rfl

theorem reach_of_symbol {ts : List Token} {found : Parsed ts.length Symbol}
    (h : symbol? ts = some found) : reach ts = found.value.reach := by
  unfold symbol? at h
  split at h <;> cases h
  rfl

theorem eat?_of_reach {ts : List Token} (h : reach ts ≤ 1) : eat? .question ts = none := by
  cases ts with
  | nil => rfl
  | cons t rest =>
      refine eat?_other fun hSame => ?_
      obtain ⟨lexeme, x⟩ := t
      cases hSame
      exact absurd h (by simp [reach, Symbol.reach])

section

variable {ts : List Token}

/-- Nothing that goes on from an operand follows. -/
theorem reads_suffixes_end (e : Expr) (h : reach ts ≤ 9) : Reads (suffixes e ts) e ts := by
  rw [suffixes.eq_def]
  split
  · next s extent rest =>
    dsimp only [reach] at h
    cases s <;> first | exact reads_ok _ | exact absurd h (by decide)
  · exact reads_ok _

/-- No operator follows that binds tighter than asked for. -/
theorem reads_operators_end (e : Expr) {m : Nat}
    (h : ∀ found ∈ symbol? ts, ∀ op ∈ BinaryOp.ofSymbol? found.value, op.precedence ≤ m) :
    Reads (operators m e ts) e ts := by
  rw [operators]
  split
  · exact reads_ok _
  · next s rest less hSymbol =>
    split
    · exact reads_ok _
    · next op hOp =>
      rw [if_pos (h _ hSymbol op hOp)]
      exact reads_ok _

theorem reads_operators_of_reach (e : Expr) {m : Nat} (h : reach ts ≤ m + 1) :
    Reads (operators m e ts) e ts := by
  apply reads_operators_end
  intro found hFound op hOp
  have hReach := reach_of_symbol hFound
  rw [reach_of_binary hOp] at hReach
  omega

theorem reads_operators_question (e : Expr) (m : Nat) (x : Extent) (rest : List Token) :
    Reads (operators m e (⟨.symbol .question, x⟩ :: rest)) e (⟨.symbol .question, x⟩ :: rest) :=
  reads_operators_end e (by rintro _ ⟨⟩ op ⟨⟩)

theorem reads_conditional {e : Expr} {rest : List Token} (h : Reads (binary 0 ts) e rest)
    (hRest : reach rest ≤ 1) : Reads (conditional ts) e rest := by
  rw [conditional]
  refine h.bind fun _ => ?_
  dsimp only
  rw [eat?_of_reach hRest]
  exact reads_ok _

/-- No assignment follows. -/
theorem reads_unassigned {bound : Nat} {e : Expr} {less : ts.length < bound}
    {next : Symbol → ∀ more : List Token, more.length < ts.length → AssignOp →
      Except ParseError (Parsed bound Expr)}
    (h : reach ts = 0) :
    Reads (match symbol? ts with
      | none => pure ⟨e, ts, less⟩
      | some ⟨s, more, fewer⟩ =>
        match AssignOp.ofSymbol? s with
        | none => pure ⟨e, ts, less⟩
        | some op => next s more fewer op) e ts := by
  split
  · exact reads_ok _
  · next s more fewer hSymbol =>
    split
    · exact reads_ok _
    · next op hOp =>
      have hReach := reach_of_symbol hSymbol
      rw [h, reach_of_assign hOp] at hReach
      cases hReach

theorem reads_assignment {e : Expr} {rest : List Token} (h : Reads (conditional ts) e rest)
    (hRest : reach rest = 0) : Reads (assignment ts) e rest := by
  rw [assignment]
  exact h.bind fun _ => reads_unassigned hRest

end

/-! Levels. -/

/-- Some tokens are taken for an operand: the members and calls behind it go on from it. -/
def TakesOperand (ts : List Token) (e : Expr) : Prop :=
  ∀ rest whole left, Reads (suffixes e rest) whole left → Reads (unary (ts ++ rest)) whole left

/-- Some tokens are taken for an operand with the operators before it. -/
def TakesUnary (ts : List Token) (e : Expr) : Prop :=
  ∀ rest, reach rest ≤ 9 → Reads (unary (ts ++ rest)) e rest

/-- Some tokens are taken for operands joined by operators, which other operators that bind
no tighter go on from. -/
def TakesBinary (level : Nat) (ts : List Token) (e : Expr) : Prop :=
  ∀ m, m + 2 ≤ level → ∀ rest, reach rest ≤ level → ∀ whole left,
    Reads (operators m e rest) whole left → Reads (binary m (ts ++ rest)) whole left

/-- Some tokens are taken for a conditional expression. -/
def TakesConditional (ts : List Token) (e : Expr) : Prop :=
  ∀ rest, reach rest ≤ 1 → Reads (conditional (ts ++ rest)) e rest

/-- Some tokens are taken for an expression of any kind. -/
def TakesAssignment (ts : List Token) (e : Expr) : Prop :=
  ∀ rest, reach rest = 0 → Reads (assignment (ts ++ rest)) e rest

/-- Some tokens are taken for an expression of a level. -/
def Takes (level : Nat) (ts : List Token) (e : Expr) : Prop :=
  match level with
  | 0 => TakesAssignment ts e
  | 1 => TakesConditional ts e
  | n + 2 =>
    if n ≤ 6 then TakesBinary (n + 2) ts e
    else if n = 7 then TakesUnary ts e
    else TakesOperand ts e

section

variable {ts : List Token} {e : Expr}

theorem TakesOperand.unary (h : TakesOperand ts e) : TakesUnary ts e :=
  fun rest hRest => h rest e rest (reads_suffixes_end e hRest)

theorem TakesUnary.binary (h : TakesUnary ts e) : TakesBinary 9 ts e := by
  intro m _ rest hRest whole left hWhole
  rw [HtmlTemplate.Script.binary]
  refine (h rest hRest).bind fun _ => ?_
  dsimp only
  exact hWhole.bind fun _ => reads_ok _

theorem TakesBinary.lower {level : Nat} (h : TakesBinary (level + 1) ts e) :
    TakesBinary level ts e :=
  fun m hm rest hRest => h m (by omega) rest (by omega)

theorem TakesBinary.conditional (h : TakesBinary 2 ts e) : TakesConditional ts e := by
  intro rest hRest
  have hEnd : Reads (operators 0 e rest) e rest := reads_operators_of_reach e hRest
  exact reads_conditional (h 0 (by omega) rest (by omega) e rest hEnd) hRest

theorem TakesConditional.assignment (h : TakesConditional ts e) : TakesAssignment ts e :=
  fun rest hRest => reads_assignment (h rest (by omega)) hRest

theorem Takes.succ {level : Nat} (h : Takes (level + 1) ts e) : Takes level ts e := by
  match level with
  | 0 => exact TakesConditional.assignment h
  | 1 => exact TakesBinary.conditional h
  | n + 2 =>
      simp only [Takes] at h ⊢
      split at h
      · rw [if_pos (by omega)]
        exact TakesBinary.lower h
      · split at h
        · have hn : n = 6 := by omega
          subst hn
          exact (TakesUnary.binary h).lower
        · rw [if_neg (by omega)]
          split
          · exact TakesOperand.unary h
          · exact h

/-- What is taken at a level is taken at lower ones. -/
theorem Takes.lower {level low : Nat} (h : Takes level ts e) (hLow : low ≤ level) :
    Takes low ts e := by
  induction hLow with
  | refl => exact h
  | step _ ih => exact ih h.succ

theorem takes_iff_binary (op : BinaryOp) :
    Takes (op.precedence + 1) ts e ↔ TakesBinary (op.precedence + 1) ts e := by
  cases op <;> exact Iff.rfl

theorem Takes.binary {op : BinaryOp} (h : Takes (op.precedence + 2) ts e) :
    TakesBinary (op.precedence + 2) ts e := by
  cases op with
  | mul => exact TakesUnary.binary h
  | div => exact TakesUnary.binary h
  | mod => exact TakesUnary.binary h
  | _ => exact h

end

/-! Operands. -/

section

variable {us vs ts : List Token} {e key : Expr} {x y : Extent}

/-- What is read without regard to what follows is an operand. -/
theorem takes_of_primary {lexeme : Lexeme} (hPlain : UnaryOp.ofLexeme? lexeme = none)
    (h : ∀ rest, Reads (primary (⟨lexeme, x⟩ :: (ts ++ rest))) e rest) :
    Takes 10 (⟨lexeme, x⟩ :: ts) e := by
  intro rest whole left hWhole
  rw [List.cons_append, unary]
  simp only [hPlain]
  rw [postfixed]
  refine (h rest).bind fun _ => ?_
  exact hWhole.bind fun _ => reads_ok _

theorem takes_parens (h : Takes 0 ts e) :
    Takes 10 (⟨.symbol .openParen, x⟩ :: (ts ++ [⟨.symbol .closeParen, y⟩])) e := by
  refine takes_of_primary rfl fun rest => ?_
  rw [primary, List.append_assoc]
  refine (h _ rfl).bind fun _ => ?_
  dsimp only
  refine (reads_expect _).bind fun _ => ?_
  exact reads_ok _

theorem takes_dot (h : Takes 10 ts e) (name : String) (optional : Bool) :
    Takes 10 (ts ++ [⟨.symbol (if optional then .optionalChain else .dot), x⟩,
      ⟨wordLexeme name.toList, y⟩]) (e.memberOf (.string y name) false optional) := by
  intro rest whole left hWhole
  rw [List.append_assoc]
  refine h _ whole left ?_
  cases optional with
  | false =>
      change Reads (suffixes e (⟨.symbol .dot, x⟩ :: ⟨wordLexeme name.toList, y⟩ :: rest)) whole left
      rw [suffixes]
      refine (reads_propertyName name).bind fun _ => ?_
      exact hWhole.bind fun _ => reads_ok _
  | true =>
      change Reads (suffixes e (⟨.symbol .optionalChain, x⟩ :: ⟨wordLexeme name.toList, y⟩ :: rest))
        whole left
      rw [suffixes]
      refine (reads_propertyName name).bind fun _ => ?_
      exact hWhole.bind fun _ => reads_ok _

theorem takes_brackets (h : Takes 10 us e) (hKey : Takes 0 vs key) :
    Takes 10 (us ++ ⟨.symbol .openBracket, x⟩ :: (vs ++ [⟨.symbol .closeBracket, y⟩]))
      (e.memberOf key true false) := by
  intro rest whole left hWhole
  rw [List.append_assoc]
  refine h _ whole left ?_
  rw [List.cons_append, List.append_assoc, suffixes]
  refine (hKey _ rfl).bind fun _ => ?_
  dsimp only
  refine (reads_expect _).bind fun _ => ?_
  dsimp only
  exact hWhole.bind fun _ => reads_ok _

/-! Operators. -/

theorem takes_unary (op : UnaryOp) (h : Takes 9 ts e) :
    Takes 9 (⟨op.lexeme, x⟩ :: ts) (.unary (x.cover e.extent) op e) := by
  intro rest hRest
  rw [List.cons_append, unary]
  simp only [UnaryOp.ofLexeme?_lexeme]
  refine (h rest hRest).bind fun _ => ?_
  exact reads_ok _

/-- Nothing goes on from a step. -/
theorem takes_step (op : StepOp) (h : Takes 10 ts e) :
    Takes 9 (ts ++ [⟨.symbol op.symbol, x⟩]) (.step (e.extent.cover x) op e) := by
  intro rest _
  rw [List.append_assoc]
  refine h _ _ _ ?_
  cases op with
  | increment =>
      simp only [StepOp.symbol, List.cons_append, List.nil_append]
      rw [suffixes]
      exact reads_ok _
  | decrement =>
      simp only [StepOp.symbol, List.cons_append, List.nil_append]
      rw [suffixes]
      exact reads_ok _

/-- The right operand is taken at the next level, so that operators of one precedence
associate to the left. -/
theorem takes_binary (op : BinaryOp) {left right : Expr} (hLeft : Takes (op.precedence + 1) us left)
    (hRight : Takes (op.precedence + 2) vs right) :
    Takes (op.precedence + 1) (us ++ ⟨.symbol op.symbol, x⟩ :: vs)
      (.binary (left.extent.cover right.extent) op left right) := by
  rw [takes_iff_binary] at hLeft ⊢
  intro m hm rest hRest whole more hWhole
  have hReach : reach (⟨.symbol op.symbol, x⟩ :: (vs ++ rest)) ≤ op.precedence + 1 :=
    Nat.le_of_eq (BinaryOp.reach_symbol op)
  rw [List.append_assoc, List.cons_append]
  refine hLeft m hm _ hReach whole more ?_
  rw [operators]
  simp only [symbol?, BinaryOp.ofSymbol?_symbol]
  rw [if_neg (by omega)]
  have hEnd := reads_operators_of_reach right hRest
  refine (hRight.binary _ (Nat.le_refl _) rest (by omega) right rest hEnd).bind fun _ => ?_
  dsimp only
  exact hWhole.bind fun _ => reads_ok _

theorem takes_conditional {condition consequent alternate : Expr} (hCondition : Takes 2 ts condition)
    (hConsequent : Takes 0 us consequent) (hAlternate : Takes 0 vs alternate) :
    Takes 0 (ts ++ ⟨.symbol .question, x⟩ :: (us ++ ⟨.symbol .colon, y⟩ :: vs))
      (.conditional (condition.extent.cover alternate.extent) condition consequent alternate) := by
  intro rest hRest
  refine reads_assignment ?_ hRest
  rw [List.append_assoc, List.cons_append, List.append_assoc, List.cons_append, conditional]
  have hReach : reach (⟨.symbol .question, x⟩ :: (us ++ ⟨.symbol .colon, y⟩ :: (vs ++ rest))) = 2 :=
    rfl
  have hEnd := reads_operators_question condition 0 x (us ++ ⟨.symbol .colon, y⟩ :: (vs ++ rest))
  refine (hCondition 0 (by omega) _ (Nat.le_of_eq hReach) _ _ hEnd).bind fun _ => ?_
  simp only [eat?_same]
  refine (hConsequent _ rfl).bind fun _ => ?_
  dsimp only
  refine (reads_expect _).bind fun _ => ?_
  dsimp only
  refine (hAlternate rest hRest).bind fun _ => ?_
  exact reads_ok _

theorem takes_assign (op : AssignOp) {target value : Expr} (hTarget : Takes 1 us target)
    (hIs : target.isTarget = true) (hValue : Takes 0 vs value) :
    Takes 0 (us ++ ⟨.symbol op.symbol, x⟩ :: vs)
      (.assign (target.extent.cover value.extent) op target value) := by
  intro rest hRest
  have hReach : reach (⟨.symbol op.symbol, x⟩ :: (vs ++ rest)) ≤ 1 :=
    Nat.le_of_eq (AssignOp.reach_symbol op)
  rw [List.append_assoc, assignment]
  refine (hTarget _ hReach).bind fun _ => ?_
  simp only [List.cons_append, symbol?, AssignOp.ofSymbol?_symbol, hIs, if_true]
  refine (hValue rest hRest).bind fun _ => ?_
  exact reads_ok _

/-! Lists. -/

/-- Some tokens are taken for the expressions up to a closing symbol. -/
def TakesItems (close : Symbol) (ts : List Token) (es : List Expr) : Prop :=
  ∀ y rest, Reads (items close (ts ++ ⟨.symbol close, y⟩ :: rest)) (es, y) rest

/-- Some tokens are taken for a property, if a comma or the closing brace follows. -/
def TakesProperty (ts : List Token) (p : Property) : Prop :=
  ∀ s ∈ [Symbol.comma, .closeBrace], ∀ y rest,
    Reads (property (ts ++ ⟨.symbol s, y⟩ :: rest)) p (⟨.symbol s, y⟩ :: rest)

/-- Some tokens are taken for the properties up to the closing brace. -/
def TakesProperties (ts : List Token) (ps : List Property) : Prop :=
  ∀ y rest, Reads (properties (ts ++ ⟨.symbol .closeBrace, y⟩ :: rest)) (ps, y) rest

/-- The symbols that close an argument list and an array. -/
def IsListClose (s : Symbol) : Prop :=
  s = .closeParen ∨ s = .closeBracket

theorem IsListClose.reach {close : Symbol} (h : IsListClose close) : close.reach = 0 := by
  rcases h with rfl | rfl <;> rfl

section

variable {close : Symbol}

theorem takesItems_nil : TakesItems close [] [] := by
  intro y rest
  rw [List.nil_append, items, eat?_same]
  exact reads_ok _

theorem takesItems_single (hClose : IsListClose close) (h : Takes 0 ts e)
    (hHead : ∀ rest, eat? close (ts ++ rest) = none) : TakesItems close ts [e] := by
  intro y rest
  have hComma : close ≠ .comma := by rcases hClose with rfl | rfl <;> decide
  rw [items, hHead]
  refine (h (⟨.symbol close, y⟩ :: rest) hClose.reach).bind fun _ => ?_
  dsimp only
  simp only [eat?_symbol hComma]
  refine (reads_expect _).bind fun _ => ?_
  exact reads_ok _

theorem takesItems_cons {es : List Expr} (h : Takes 0 us e)
    (hHead : ∀ rest, eat? close (us ++ rest) = none) (hMore : TakesItems close vs es) :
    TakesItems close (us ++ ⟨.symbol .comma, x⟩ :: vs) (e :: es) := by
  intro y rest
  rw [List.append_assoc, List.cons_append, items, hHead]
  refine (h _ rfl).bind fun _ => ?_
  simp only [eat?_same]
  refine (hMore y rest).bind fun _ => ?_
  exact reads_ok _

end

theorem takesProperty_shorthand {lexeme : Lexeme} {key : String} (h : propertyKey? lexeme = some key) :
    TakesProperty [⟨lexeme, x⟩] (.mk key (.identifier x key) true) := by
  intro s hs y rest
  have hColon : s ≠ .colon := by
    rintro rfl
    exact absurd hs (by decide)
  rw [List.singleton_append, property]
  simp only [h, eat?_symbol hColon]
  exact reads_ok _

theorem takesProperty_value {lexeme : Lexeme} {key : String} (h : propertyKey? lexeme = some key)
    (hValue : Takes 0 ts e) :
    TakesProperty (⟨lexeme, x⟩ :: ⟨.symbol .colon, y⟩ :: ts) (.mk key e false) := by
  intro s hs z rest
  have hReach : s.reach = 0 := by
    simp only [List.mem_cons, List.not_mem_nil, or_false] at hs
    rcases hs with rfl | rfl <;> rfl
  rw [List.cons_append, List.cons_append, property]
  simp only [h, eat?_same]
  refine (hValue (⟨.symbol s, z⟩ :: rest) hReach).bind fun _ => ?_
  exact reads_ok _

theorem eat?_of_propertyKey {lexeme : Lexeme} {key : String} (h : propertyKey? lexeme = some key)
    (s : Symbol) (rest : List Token) : eat? s (⟨lexeme, x⟩ :: rest) = none := by
  refine eat?_other ?_
  rintro rfl
  cases h

theorem takesProperties_nil : TakesProperties [] [] := by
  intro y rest
  rw [List.nil_append, properties, eat?_same]
  exact reads_ok _

theorem takesProperties_single {p : Property} (h : TakesProperty ts p)
    (hHead : ∀ rest, eat? .closeBrace (ts ++ rest) = none) : TakesProperties ts [p] := by
  intro y rest
  rw [properties, hHead]
  refine (h .closeBrace (by decide) y rest).bind fun _ => ?_
  simp only [eat?_symbol (show Symbol.closeBrace ≠ .comma by decide)]
  refine (reads_expect _).bind fun _ => ?_
  exact reads_ok _

theorem takesProperties_cons {p : Property} {ps : List Property} (h : TakesProperty us p)
    (hHead : ∀ rest, eat? .closeBrace (us ++ rest) = none) (hMore : TakesProperties vs ps) :
    TakesProperties (us ++ ⟨.symbol .comma, x⟩ :: vs) (p :: ps) := by
  intro y rest
  rw [List.append_assoc, List.cons_append, properties, hHead]
  refine (h .comma (by decide) x _).bind fun _ => ?_
  simp only [eat?_same]
  refine (hMore y rest).bind fun _ => ?_
  exact reads_ok _

/-! Brackets around lists. -/

theorem takes_call {arguments : List Expr} (h : Takes 10 us e)
    (hArguments : TakesItems .closeParen vs arguments) :
    Takes 10 (us ++ ⟨.symbol .openParen, x⟩ :: (vs ++ [⟨.symbol .closeParen, y⟩]))
      (.call (e.extent.cover y) e arguments) := by
  intro rest whole left hWhole
  rw [List.append_assoc]
  refine h _ whole left ?_
  rw [List.cons_append, List.append_assoc, suffixes]
  refine (hArguments y rest).bind fun _ => ?_
  exact hWhole.bind fun _ => reads_ok _

theorem takes_array {es : List Expr} (h : TakesItems .closeBracket ts es) :
    Takes 10 (⟨.symbol .openBracket, x⟩ :: (ts ++ [⟨.symbol .closeBracket, y⟩]))
      (.array (x.cover y) es) := by
  refine takes_of_primary rfl fun rest => ?_
  rw [primary, List.append_assoc]
  refine (h y rest).bind fun _ => ?_
  exact reads_ok _

theorem takes_object {ps : List Property} (h : TakesProperties ts ps) :
    Takes 10 (⟨.symbol .openBrace, x⟩ :: (ts ++ [⟨.symbol .closeBrace, y⟩]))
      (.object (x.cover y) ps) := by
  refine takes_of_primary rfl fun rest => ?_
  rw [primary, List.append_assoc]
  refine (h y rest).bind fun _ => ?_
  exact reads_ok _

end

/-! Texts. -/

/-- An expression is read, and the end of the text is left. -/
theorem parse_eq_ok {source : String} {ts : List Token} {e : Expr}
    (hTokens : parserTokens source = .ok ts) :
    Expr.parse source = .ok e ↔ ∃ x rest, Reads (assignment ts) e (⟨.finish, x⟩ :: rest) := by
  constructor
  · intro h
    obtain ⟨_, hSame, h⟩ := bind_eq_ok.mp h
    obtain rfl := Except.ok.inj (hSame.symm.trans hTokens)
    obtain ⟨⟨found, left, less⟩, hRead, h⟩ := bind_eq_ok.mp h
    dsimp only at h
    split at h
    · cases h
      exact ⟨_, _, less, hRead⟩
    · unfold unexpected at h
      split at h <;> cases h
  · rintro ⟨x, rest, less, hRead⟩
    exact bind_eq_ok.mpr ⟨ts, hTokens, bind_eq_ok.mpr ⟨_, hRead, rfl⟩⟩

end HtmlTemplate.Script
