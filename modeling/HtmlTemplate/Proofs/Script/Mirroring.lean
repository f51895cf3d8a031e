import HtmlTemplate.Proofs.Script.Grammar
import HtmlTemplate.Proofs.Script.Reading

/-! Tokens that are read as the same expression. Two texts may differ in what an expression does
not depend on, such as the extents of their tokens, or what stands behind the expression; if they
go together token by token, they are read as the same tree up to extents, and what is left of them
goes together as well. -/
namespace HtmlTemplate.Script

/-- Tokens that no expression begins with or goes on with. -/
def Inert (ts : List Token) : Prop :=
  ∀ t ∈ ts.head?, t.lexeme = .symbol .closeParen ∨ t.lexeme = .finish

/-- How many parentheses are open in front of a symbol, of those that are open behind it. -/
def Symbol.inside (s : Symbol) (n : Nat) : Nat :=
  if s = .closeParen then n + 1 else n

/-- Tokens that go together while some number of parentheses is open. They begin with the same
lexeme, or, where no parenthesis is open, with nothing that an expression could go on with. What
stands behind a lexeme goes together as well. -/
structure Couples (R : Nat → List Token → List Token → Prop) : Prop where
  head {n : Nat} {ts us : List Token} (h : R n ts us) :
    n = 0 ∧ Inert ts ∧ Inert us ∨ ts.head?.map (·.lexeme) = us.head?.map (·.lexeme)
  opens {n : Nat} {x y : Extent} {ts us : List Token}
    (h : R n (⟨.symbol .openParen, x⟩ :: ts) (⟨.symbol .openParen, y⟩ :: us)) : R (n + 1) ts us
  closes {n : Nat} {x y : Extent} {ts us : List Token}
    (h : R (n + 1) (⟨.symbol .closeParen, x⟩ :: ts) (⟨.symbol .closeParen, y⟩ :: us)) : R n ts us
  other {n : Nat} {l : Lexeme} {x y : Extent} {ts us : List Token}
    (hl : l ∉ [.symbol .openParen, .symbol .closeParen, .finish])
    (h : R n (⟨l, x⟩ :: ts) (⟨l, y⟩ :: us)) : R n ts us

section

variable {ts us : List Token} {n : Nat} {s : Symbol}

theorem head?_eq_some {l : Lexeme} (h : ts.head?.map (·.lexeme) = some l) :
    ∃ x rest, ts = ⟨l, x⟩ :: rest := by
  cases ts with
  | nil => cases h
  | cons t rest =>
      obtain ⟨lexeme, x⟩ := t
      cases h
      exact ⟨x, rest, rfl⟩

theorem eat?_of_head (h : ts.head?.map (·.lexeme) ≠ some (.symbol s)) : eat? s ts = none := by
  cases ts with
  | nil => rfl
  | cons t rest => exact eat?_other fun hSame => h (congrArg some hSame)

namespace Inert

theorem reach_eq (h : Inert ts) : reach ts = 0 := by
  cases ts with
  | nil => rfl
  | cons t rest =>
      obtain ⟨lexeme, x⟩ := t
      obtain rfl | rfl := h _ rfl <;> rfl

theorem eat?_eq_none (h : Inert ts) (hs : s ≠ .closeParen) : eat? s ts = none := by
  refine eat?_of_head fun hHead => ?_
  obtain ⟨x, rest, rfl⟩ := head?_eq_some hHead
  rcases h _ rfl with hSame | hFinish
  · exact hs (Lexeme.symbol.inj hSame)
  · cases hFinish

theorem primary_error (h : Inert ts) : ∃ e, primary ts = .error e := by
  rw [primary.eq_def]
  cases ts with
  | nil => exact ⟨_, rfl⟩
  | cons t rest =>
      obtain ⟨lexeme, x⟩ := t
      obtain rfl | rfl := h _ rfl <;> exact ⟨_, rfl⟩

/-- No expression begins with such tokens. -/
theorem unary_error (h : Inert ts) : ∃ e, unary ts = .error e := by
  obtain ⟨e, hPrimary⟩ := h.primary_error
  have hPostfixed : postfixed ts = .error e := by
    rw [postfixed, hPrimary]
    rfl
  rw [unary.eq_def]
  cases ts with
  | nil =>
      dsimp only
      rw [hPostfixed]
      exact ⟨e, rfl⟩
  | cons t rest =>
      obtain ⟨lexeme, x⟩ := t
      obtain rfl | rfl := h _ rfl <;> exact ⟨e, hPostfixed⟩

end Inert

end

namespace Couples

variable {R : Nat → List Token → List Token → Prop} {ts us : List Token} {n : Nat}

theorem cons (hR : Couples R) {t : Token} {rest : List Token} (h : R n (t :: rest) us) :
    Inert (t :: rest) ∧ Inert us ∨ ∃ y others, us = ⟨t.lexeme, y⟩ :: others := by
  refine (hR.head h).imp And.right fun hHead => head?_eq_some hHead.symm

theorem nil (hR : Couples R) (h : R n [] us) : us = [] ∨ Inert us := by
  refine (hR.head h).symm.imp (fun hHead => ?_) fun hInert => hInert.2.2
  exact List.head?_eq_none_iff.mp (Option.map_eq_none_iff.mp hHead.symm)

theorem inert (hR : Couples R) (h : R n [] us) : Inert us := by
  rcases hR.nil h with rfl | hInert
  · exact nofun
  · exact hInert

theorem eat? (hR : Couples R) {s : Symbol} (hs : s ≠ .openParen) (h : R (s.inside n) ts us) :
    (Script.eat? s ts = none ∧ Script.eat? s us = none) ∨ ∃ x rest less y others less',
      Script.eat? s ts = some ⟨x, rest, less⟩ ∧ Script.eat? s us = some ⟨y, others, less'⟩ ∧
        R n rest others := by
  rcases hR.head h with ⟨hNone, hLeft, hRight⟩ | hHead
  · have hClose : s ≠ .closeParen := by
      rintro rfl
      exact Nat.succ_ne_zero n hNone
    exact .inl ⟨hLeft.eat?_eq_none hClose, hRight.eat?_eq_none hClose⟩
  · by_cases hSymbol : ts.head?.map (·.lexeme) = some (.symbol s)
    · obtain ⟨x, rest, rfl⟩ := head?_eq_some hSymbol
      obtain ⟨y, others, rfl⟩ := head?_eq_some (hHead.symm.trans hSymbol)
      refine .inr ⟨x, rest, _, y, others, _, eat?_same, eat?_same, ?_⟩
      by_cases hClose : s = .closeParen
      · subst hClose
        exact hR.closes h
      · rw [Symbol.inside, if_neg hClose] at h
        exact hR.other (by simp [hs, hClose]) h
    · exact .inl ⟨eat?_of_head hSymbol, eat?_of_head (hHead ▸ hSymbol)⟩

theorem symbol? (hR : Couples R) (h : R n ts us) :
    (reach ts = 0 ∧ reach us = 0) ∨ ∃ s rest less others less',
      Script.symbol? ts = some ⟨s, rest, less⟩ ∧ Script.symbol? us = some ⟨s, others, less'⟩ ∧
        (s ∉ [.openParen, .closeParen] → R n rest others) := by
  rcases hR.head h with ⟨-, hLeft, hRight⟩ | hHead
  · exact .inl ⟨hLeft.reach_eq, hRight.reach_eq⟩
  · cases ts with
    | nil =>
        obtain rfl : us = [] := List.head?_eq_none_iff.mp (Option.map_eq_none_iff.mp hHead.symm)
        exact .inl ⟨rfl, rfl⟩
    | cons t rest =>
        obtain ⟨lexeme, x⟩ := t
        obtain ⟨y, others, rfl⟩ := head?_eq_some hHead.symm
        cases lexeme with
        | symbol s =>
            refine .inr ⟨s, rest, Nat.lt_succ_self _, others, Nat.lt_succ_self _, rfl, rfl,
              fun hs => hR.other (by simpa using hs) h⟩
        | _ => exact .inl ⟨rfl, rfl⟩

end Couples

/-- Where a parser reads a value, another one reads such a value and what is left goes together. -/
def Mirrors {n m : Nat} {α : Type} (R : List Token → List Token → Prop) (same : α → α → Prop)
    (x : Except ParseError (Parsed n α)) (y : Except ParseError (Parsed m α)) : Prop :=
  ∀ r, x = .ok r → ∃ s, y = .ok s ∧ same r.value s.value ∧ R r.rest s.rest

namespace Mirrors

variable {n m k l : Nat} {α β : Type} {same : α → α → Prop} {Same : β → β → Prop}
  {R S : List Token → List Token → Prop} {ts us : List Token}

theorem value {a b : α} {less : ts.length < n} {less' : us.length < m} (h : same a b)
    (hRest : R ts us) :
    Mirrors R same (Except.ok (⟨a, ts, less⟩ : Parsed n α))
      (Except.ok (⟨b, us, less'⟩ : Parsed m α)) := by
  rintro _ ⟨⟩
  exact ⟨_, rfl, h, hRest⟩

theorem of_reads {x : Except ParseError (Parsed n α)} {y : Except ParseError (Parsed m α)} {a b : α}
    (hx : Reads x a ts) (hy : Reads y b us) (h : same a b) (hRest : R ts us) :
    Mirrors R same x y := by
  obtain ⟨less, rfl⟩ := hx
  obtain ⟨less', rfl⟩ := hy
  exact .value h hRest

theorem error {e : ParseError} {y : Except ParseError (Parsed m α)} :
    Mirrors R same (.error e : Except ParseError (Parsed n α)) y := nofun

theorem unexpected {vs : List Token} {expected : String} {y : Except ParseError (Parsed m α)} :
    Mirrors R same (Script.unexpected vs expected : Except ParseError (Parsed n α)) y := by
  cases vs <;> exact nofun

theorem bind {x : Except ParseError (Parsed n α)} {y : Except ParseError (Parsed m α)}
    {f : Parsed n α → Except ParseError (Parsed k β)}
    {g : Parsed m α → Except ParseError (Parsed l β)} (h : Mirrors R same x y)
    (hNext : ∀ a ts less b us less', same a b → R ts us →
      Mirrors S Same (f ⟨a, ts, less⟩) (g ⟨b, us, less'⟩)) : Mirrors S Same (x >>= f) (y >>= g) := by
  intro r hr
  obtain ⟨⟨a, ts, less⟩, hFirst, hRest⟩ := bind_eq_ok.mp hr
  obtain ⟨⟨b, us, less'⟩, hOther, hSame, hTogether⟩ := h _ hFirst
  obtain ⟨s, hLast, hResult⟩ := hNext a ts less b us less' hSame hTogether r hRest
  exact ⟨s, bind_eq_ok.mpr ⟨_, hOther, hLast⟩, hResult⟩

theorem expect {R : Nat → List Token → List Token → Prop} {depth : Nat} {s : Symbol}
    {expected : String} (hR : Couples R) (hs : s ≠ .openParen) (h : R (s.inside depth) ts us) :
    Mirrors (R depth) (fun _ _ => True) (Script.expect s expected ts)
      (Script.expect s expected us) := by
  rcases hR.eat? hs h with ⟨hNone, -⟩ | ⟨x, rest, less, y, others, less', hSome, hSome', hRest⟩
  · unfold Script.expect
    split
    · next found x rest =>
      rw [if_neg]
      · exact .unexpected
      · rintro rfl
        cases eat?_same.symm.trans hNone
    · exact .unexpected
  · rw [eat?_eq_some hSome, eat?_eq_some hSome']
    exact .of_reads (reads_expect expected) (reads_expect expected) trivial hRest

end Mirrors

/-- The same expression up to extents. -/
def SameExpr (e f : Expr) : Prop :=
  e.bare = f.bare

section

variable {ts us : List Token} {e f p q r t : Expr}

theorem SameExpr.isTarget (h : SameExpr e f) : e.isTarget = f.isTarget := by
  rw [← isTarget_bare, h, isTarget_bare]

theorem SameExpr.memberOf (h : SameExpr e f) (hProperty : SameExpr p q)
    (computed optional : Bool) :
    SameExpr (e.memberOf p computed optional) (f.memberOf q computed optional) := by
  unfold SameExpr Expr.memberOf Expr.bare
  rw [h, hProperty]

theorem SameExpr.binary {x y : Extent} (op : BinaryOp) (h : SameExpr e f) (hRight : SameExpr p q) :
    SameExpr (.binary x op e p) (.binary y op f q) := by
  unfold SameExpr Expr.bare
  rw [h, hRight]

theorem SameExpr.unary {x y : Extent} (op : UnaryOp) (h : SameExpr e f) :
    SameExpr (.unary x op e) (.unary y op f) := by
  unfold SameExpr Expr.bare
  rw [h]

theorem SameExpr.step {x y : Extent} (op : StepOp) (h : SameExpr e f) :
    SameExpr (.step x op e) (.step y op f) := by
  unfold SameExpr Expr.bare
  rw [h]

theorem SameExpr.assign {x y : Extent} (op : AssignOp) (h : SameExpr e f) (hValue : SameExpr p q) :
    SameExpr (.assign x op e p) (.assign y op f q) := by
  unfold SameExpr Expr.bare
  rw [h, hValue]

theorem SameExpr.conditional {x y : Extent} (h : SameExpr e f) (hThen : SameExpr p q)
    (hElse : SameExpr r t) : SameExpr (.conditional x e p r) (.conditional y f q t) := by
  unfold SameExpr Expr.bare
  rw [h, hThen, hElse]

theorem SameExpr.call {x y : Extent} {es fs : List Expr} (h : SameExpr e f)
    (hItems : bareItems es = bareItems fs) : SameExpr (.call x e es) (.call y f fs) := by
  unfold SameExpr Expr.bare
  rw [h, hItems]

theorem bareItems_cons {es fs : List Expr} (h : SameExpr e f)
    (hItems : bareItems es = bareItems fs) :
    bareItems (e :: es) = bareItems (f :: fs) := by
  rw [bareItems, bareItems, h, hItems]

theorem bareProperties_cons {p q : Property} {ps qs : List Property} (h : p.bare = q.bare)
    (hItems : bareProperties ps = bareProperties qs) :
    bareProperties (p :: ps) = bareProperties (q :: qs) := by
  rw [bareProperties, bareProperties, h, hItems]

end

/-! What is taken by itself is no parenthesis. -/

theorem AssignOp.not_paren {s : Symbol} {op : AssignOp} (h : AssignOp.ofSymbol? s = some op) :
    s ∉ [.openParen, .closeParen] := by
  cases s <;> first | decide | cases h

theorem BinaryOp.not_paren {s : Symbol} {op : BinaryOp} (h : BinaryOp.ofSymbol? s = some op) :
    s ∉ [.openParen, .closeParen] := by
  cases s <;> first | decide | cases h

theorem UnaryOp.not_paren {l : Lexeme} {op : UnaryOp} (h : UnaryOp.ofLexeme? l = some op) :
    l ∉ [.symbol .openParen, .symbol .closeParen, .finish] := by
  intro hMem
  rcases (by simpa using hMem : l = .symbol .openParen ∨ l = .symbol .closeParen ∨ l = .finish) with
    rfl | rfl | rfl <;> cases h

theorem propertyKey?_not_paren {l : Lexeme} {key : String} (h : propertyKey? l = some key) :
    l ∉ [.symbol .openParen, .symbol .closeParen, .finish] := by
  intro hMem
  rcases (by simpa using hMem : l = .symbol .openParen ∨ l = .symbol .closeParen ∨ l = .finish) with
    rfl | rfl | rfl <;> cases h

/-! The parsers, by their own recursion. -/

section

variable {R : Nat → List Token → List Token → Prop}

theorem propertyName_mirrors (hR : Couples R) {n : Nat} {ts us : List Token} (h : R n ts us) :
    Mirrors (R n) SameExpr (propertyName ts) (propertyName us) := by
  unfold propertyName
  cases ts with
  | nil => exact .unexpected
  | cons t rest =>
      obtain ⟨lexeme, x⟩ := t
      rcases hR.cons h with ⟨hInert, -⟩ | ⟨y, others, rfl⟩
      · obtain rfl | rfl := hInert _ rfl <;> exact .unexpected
      · cases lexeme with
        | identifier | boolean | null | undefined | typeof =>
            exact .value rfl (hR.other (by simp) h)
        | _ => exact .unexpected

mutual

theorem assignment_mirrors (hR : Couples R) {n : Nat} {ts us : List Token} (h : R n ts us) :
    Mirrors (R n) SameExpr (assignment ts) (assignment us) := by
  rw [assignment, assignment]
  refine (conditional_mirrors hR h).bind fun e rest less f others _ hSame hRest => ?_
  dsimp only
  rcases hR.symbol? hRest with
      ⟨hEnd, hEnd'⟩ | ⟨s, more, hLess, moreOthers, _, hSome, hSome', hMore⟩
  · exact .of_reads (reads_unassigned hEnd) (reads_unassigned hEnd') hSame hRest
  · rw [hSome, hSome']
    dsimp only
    cases hOp : AssignOp.ofSymbol? s with
    | none => exact .value hSame hRest
    | some op =>
        dsimp only
        have hBehind := hMore (AssignOp.not_paren hOp)
        rw [hSame.isTarget]
        split
        · exact (assignment_mirrors hR hBehind).bind fun _ _ _ _ _ _ hValue hLast =>
            .value (hSame.assign op hValue) hLast
        · exact .error
termination_by (ts.length, 6)

theorem conditional_mirrors (hR : Couples R) {n : Nat} {ts us : List Token} (h : R n ts us) :
    Mirrors (R n) SameExpr (conditional ts) (conditional us) := by
  rw [conditional, conditional]
  refine (binary_mirrors hR 0 h).bind fun e rest less f others _ hSame hRest => ?_
  dsimp only
  rcases hR.eat? (s := .question) (by decide) hRest with
      ⟨hNone, hNone'⟩ | ⟨x, more, hLess, y, moreOthers, _, hSome, hSome', hMore⟩
  · rw [hNone, hNone']
    exact .value hSame hRest
  · rw [hSome, hSome']
    dsimp only
    refine (assignment_mirrors hR hMore).bind fun _ _ _ _ _ _ hThen hRest => ?_
    refine (Mirrors.expect hR (s := .colon) (by decide) hRest).bind fun _ _ _ _ _ _ _ hRest => ?_
    exact (assignment_mirrors hR hRest).bind fun _ _ _ _ _ _ hElse hRest =>
      .value (hSame.conditional hThen hElse) hRest
termination_by (ts.length, 5)

theorem binary_mirrors (hR : Couples R) (level : Nat) {n : Nat} {ts us : List Token}
    (h : R n ts us) : Mirrors (R n) SameExpr (binary level ts) (binary level us) := by
  rw [binary, binary]
  refine (unary_mirrors hR h).bind fun _ _ _ _ _ _ hSame hRest => ?_
  exact (operators_mirrors hR level hSame hRest).bind fun _ _ _ _ _ _ hWhole hRest =>
    .value hWhole hRest
termination_by (ts.length, 4)

theorem operators_mirrors (hR : Couples R) (level : Nat) {left other : Expr}
    (hLeft : SameExpr left other) {n : Nat} {ts us : List Token} (h : R n ts us) :
    Mirrors (R n) SameExpr (operators level left ts) (operators level other us) := by
  rcases hR.symbol? h with ⟨hEnd, hEnd'⟩ | ⟨s, more, hLess, moreOthers, _, hSome, hSome', hMore⟩
  · exact .of_reads (reads_operators_of_reach left (by omega))
      (reads_operators_of_reach other (by omega)) hLeft h
  · rw [operators, operators, hSome, hSome']
    dsimp only
    cases hOp : BinaryOp.ofSymbol? s with
    | none => exact .value hLeft h
    | some op =>
        dsimp only
        have hBehind := hMore (BinaryOp.not_paren hOp)
        split
        · exact .value hLeft h
        · refine (binary_mirrors hR op.precedence hBehind).bind
            fun _ _ _ _ _ _ hRight hRest => ?_
          exact (operators_mirrors hR level (hLeft.binary op hRight) hRest).bind
            fun _ _ _ _ _ _ hAll hRest => .value hAll hRest
termination_by (ts.length, 0)

theorem unary_mirrors (hR : Couples R) {n : Nat} {ts us : List Token} (h : R n ts us) :
    Mirrors (R n) SameExpr (unary ts) (unary us) := by
  cases ts with
  | nil =>
      obtain ⟨e, hError⟩ := Inert.unary_error (nofun : Inert [])
      rw [hError]
      exact .error
  | cons t rest =>
      obtain ⟨lexeme, x⟩ := t
      rcases hR.cons h with ⟨hInert, -⟩ | ⟨y, others, rfl⟩
      · obtain ⟨e, hError⟩ := hInert.unary_error
        rw [hError]
        exact .error
      · rw [unary, unary]
        dsimp only
        cases hOp : UnaryOp.ofLexeme? lexeme with
        | none => exact postfixed_mirrors hR h
        | some op =>
            have hBehind := hR.other (UnaryOp.not_paren hOp) h
            exact (unary_mirrors hR hBehind).bind fun _ _ _ _ _ _ hOperand hLast =>
              .value (hOperand.unary op) hLast
termination_by (ts.length, 3)
decreasing_by all_goals (subst_vars; decreasing_tactic)

theorem postfixed_mirrors (hR : Couples R) {n : Nat} {ts us : List Token} (h : R n ts us) :
    Mirrors (R n) SameExpr (postfixed ts) (postfixed us) := by
  rw [postfixed, postfixed]
  refine (primary_mirrors hR h).bind fun _ _ _ _ _ _ hSame hRest => ?_
  exact (suffixes_mirrors hR hSame hRest).bind fun _ _ _ _ _ _ hWhole hRest =>
    .value hWhole hRest
termination_by (ts.length, 2)

theorem suffixes_mirrors (hR : Couples R) {operand other : Expr}
    (hOperand : SameExpr operand other) {n : Nat} {ts us : List Token} (h : R n ts us) :
    Mirrors (R n) SameExpr (suffixes operand ts) (suffixes other us) := by
  cases ts with
  | nil =>
      have hEnd := (hR.inert h).reach_eq
      exact .of_reads (reads_suffixes_end operand (Nat.zero_le 9))
        (reads_suffixes_end other (by omega)) hOperand h
  | cons t rest =>
      obtain ⟨lexeme, x⟩ := t
      rcases hR.cons h with ⟨hInert, hInert'⟩ | ⟨y, others, rfl⟩
      · have hEnd := hInert.reach_eq
        have hEnd' := hInert'.reach_eq
        exact .of_reads (reads_suffixes_end operand (by omega))
          (reads_suffixes_end other (by omega)) hOperand h
      · rw [suffixes.eq_def, suffixes.eq_def]
        cases lexeme with
        | symbol s =>
            cases s
            case dot | optionalChain =>
              refine (propertyName_mirrors hR (hR.other (by simp) h)).bind
                fun _ _ _ _ _ _ hProperty hRest => ?_
              exact (suffixes_mirrors hR (hOperand.memberOf hProperty _ _) hRest).bind
                fun _ _ _ _ _ _ hAll hRest => .value hAll hRest
            case openBracket =>
              refine (assignment_mirrors hR (hR.other (by simp) h)).bind
                fun _ _ _ _ _ _ hProperty hRest => ?_
              refine (Mirrors.expect hR (s := .closeBracket) (by decide) hRest).bind
                fun _ _ _ _ _ _ _ hRest => ?_
              exact (suffixes_mirrors hR (hOperand.memberOf hProperty _ _) hRest).bind
                fun _ _ _ _ _ _ hAll hRest => .value hAll hRest
            case openParen =>
              refine (items_mirrors hR .closeParen (by decide) (hR.opens h)).bind
                fun _ _ _ _ _ _ hItems hRest => ?_
              exact (suffixes_mirrors hR (hOperand.call hItems) hRest).bind
                fun _ _ _ _ _ _ hAll hRest => .value hAll hRest
            case plusPlus | minusMinus => exact .value (hOperand.step _) (hR.other (by simp) h)
            all_goals exact .value hOperand h
        | _ => exact .value hOperand h
termination_by (ts.length, 0)
decreasing_by all_goals (subst_vars; decreasing_tactic)

theorem primary_mirrors (hR : Couples R) {n : Nat} {ts us : List Token} (h : R n ts us) :
    Mirrors (R n) SameExpr (primary ts) (primary us) := by
  cases ts with
  | nil =>
      obtain ⟨e, hError⟩ := Inert.primary_error (nofun : Inert [])
      rw [hError]
      exact .error
  | cons t rest =>
      obtain ⟨lexeme, x⟩ := t
      rcases hR.cons h with ⟨hInert, -⟩ | ⟨y, others, rfl⟩
      · obtain ⟨e, hError⟩ := hInert.primary_error
        rw [hError]
        exact .error
      · rw [primary.eq_def, primary.eq_def]
        cases lexeme with
        | symbol s =>
            cases s
            case openParen =>
              refine (assignment_mirrors hR (hR.opens h)).bind fun _ _ _ _ _ _ hInner hRest => ?_
              exact (Mirrors.expect hR (s := .closeParen) (by decide) hRest).bind
                fun _ _ _ _ _ _ _ hRest => .value hInner hRest
            case openBracket =>
              exact (items_mirrors hR .closeBracket (by decide) (hR.other (by simp) h)).bind
                fun _ _ _ _ _ _ hItems hRest =>
                  .value (congrArg (Expr.array Extent.nowhere) hItems) hRest
            case openBrace =>
              exact (properties_mirrors hR (hR.other (by simp) h)).bind
                fun _ _ _ _ _ _ hItems hRest =>
                  .value (congrArg (Expr.object Extent.nowhere) hItems) hRest
            all_goals exact .unexpected
        | typeof | finish => exact .unexpected
        | _ => exact .value rfl (hR.other (by simp) h)
termination_by (ts.length, 1)
decreasing_by all_goals (subst_vars; decreasing_tactic)

theorem items_mirrors (hR : Couples R) (close : Symbol) (hClose : close ≠ .openParen) {n : Nat}
    {ts us : List Token} (h : R (close.inside n) ts us) :
    Mirrors (R n) (fun p q => bareItems p.1 = bareItems q.1) (items close ts)
      (items close us) := by
  rw [items, items]
  rcases hR.eat? hClose h with
      ⟨hNone, hNone'⟩ | ⟨x, more, hLess, y, moreOthers, _, hSome, hSome', hMore⟩
  · rw [hNone, hNone']
    refine (assignment_mirrors hR h).bind fun item rest less item' others _ hItem hRest => ?_
    dsimp only
    rcases hR.eat? (s := .comma) (by decide) hRest with
        ⟨hNone, hNone'⟩ | ⟨x, more, hLess, y, moreOthers, _, hSome, hSome', hMore⟩
    · rw [hNone, hNone']
      exact (Mirrors.expect hR hClose hRest).bind fun _ _ _ _ _ _ _ hRest =>
        .value (bareItems_cons hItem rfl) hRest
    · rw [hSome, hSome']
      dsimp only
      exact (items_mirrors hR close hClose hMore).bind fun _ _ _ _ _ _ hItems hRest =>
        .value (bareItems_cons hItem hItems) hRest
  · rw [hSome, hSome']
    dsimp only
    exact .value rfl hMore
termination_by (ts.length, 7)

theorem properties_mirrors (hR : Couples R) {n : Nat} {ts us : List Token} (h : R n ts us) :
    Mirrors (R n) (fun p q => bareProperties p.1 = bareProperties q.1) (properties ts)
      (properties us) := by
  rw [properties, properties]
  rcases hR.eat? (s := .closeBrace) (by decide) h with
      ⟨hNone, hNone'⟩ | ⟨x, more, hLess, y, moreOthers, _, hSome, hSome', hMore⟩
  · rw [hNone, hNone']
    refine (property_mirrors hR h).bind fun item rest less item' others _ hItem hRest => ?_
    dsimp only
    rcases hR.eat? (s := .comma) (by decide) hRest with
        ⟨hNone, hNone'⟩ | ⟨x, more, hLess, y, moreOthers, _, hSome, hSome', hMore⟩
    · rw [hNone, hNone']
      exact (Mirrors.expect hR (s := .closeBrace) (by decide) hRest).bind
        fun _ _ _ _ _ _ _ hRest => .value (bareProperties_cons hItem rfl) hRest
    · rw [hSome, hSome']
      dsimp only
      exact (properties_mirrors hR hMore).bind fun _ _ _ _ _ _ hItems hRest =>
        .value (bareProperties_cons hItem hItems) hRest
  · rw [hSome, hSome']
    dsimp only
    exact .value rfl hMore
termination_by (ts.length, 8)

theorem property_mirrors (hR : Couples R) {n : Nat} {ts us : List Token} (h : R n ts us) :
    Mirrors (R n) (fun p q => p.bare = q.bare) (property ts) (property us) := by
  rw [property.eq_def, property.eq_def]
  cases ts with
  | nil => exact .unexpected
  | cons t rest =>
      obtain ⟨lexeme, x⟩ := t
      rcases hR.cons h with ⟨hInert, -⟩ | ⟨y, others, rfl⟩
      · obtain rfl | rfl := hInert _ rfl <;> exact .unexpected
      · dsimp only
        cases hKey : propertyKey? lexeme with
        | none => exact .unexpected
        | some key =>
            dsimp only
            have hBehind := hR.other (propertyKey?_not_paren hKey) h
            rcases hR.eat? (s := .colon) (by decide) hBehind with
                ⟨hNone, hNone'⟩ | ⟨x, more, hLess, y, moreOthers, _, hSome, hSome', hMore⟩
            · rw [hNone, hNone']
              exact .value rfl hBehind
            · rw [hSome, hSome']
              dsimp only
              exact (assignment_mirrors hR hMore).bind fun _ _ _ _ _ _ hValue hRest =>
                .value (congrArg (Property.mk key · false) hValue) hRest
termination_by (ts.length, 7)
decreasing_by all_goals (subst_vars; decreasing_tactic)

end

end

end HtmlTemplate.Script
