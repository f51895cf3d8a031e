import HtmlTemplate.Proofs.Script.Alignment
import HtmlTemplate.Proofs.Script.Grammar

/-! Where expressions stand. The extent of an expression goes from the first of its tokens to
the last, parentheses around it apart, so that it contains the extents of all expressions the
expression is made of. What can be derived from tokens stands behind a position that they stand
behind, and in front of what is left of them. -/
namespace HtmlTemplate.Script

def Property.value : Property → Expr
  | .mk _ value _ => value

/-- The expressions that an expression is made of. -/
def Expr.parts : Expr → List Expr
  | .number .. | .string .. | .boolean .. | .null .. | .undefined .. | .identifier ..
  | .reference .. => []
  | .unary _ _ operand | .step _ _ operand => [operand]
  | .binary _ _ left right => [left, right]
  | .member _ inner property _ _ => [inner, property]
  | .call _ callee arguments => callee :: arguments
  | .conditional _ condition consequent alternate => [condition, consequent, alternate]
  | .object _ properties => properties.map Property.value
  | .array _ items => items
  | .assign _ _ target value => [target, value]

/-- An expression contains itself and all that its parts contain. -/
inductive Expr.Contains : Expr → Expr → Prop where
  | self (e : Expr) : e.Contains e
  | inner {e part d : Expr} (h : part ∈ e.parts) (hd : part.Contains d) : e.Contains d

/-- Each expression that an expression contains has its parts within its extent, one behind
another. -/
structure Expr.Nests (e : Expr) : Prop where
  parts_within : ∀ d, e.Contains d →
    ∀ part ∈ d.parts, part.extent.Occupies d.extent.start d.extent.stop
  parts_apart : ∀ d, e.Contains d → d.parts.Pairwise fun a b => a.extent.stop ≤ b.extent.start

/-- An expression between two positions. -/
structure Expr.Placed (p q : Nat) (e : Expr) : Prop where
  occupies : e.extent.Occupies p q
  nests : e.Nests

section

variable {n p q m r s : Nat} {x y : Extent} {e d left right : Expr} {es : List Expr}

theorem nests_of_parts (h : ∀ part ∈ e.parts, part.Placed e.extent.start e.extent.stop)
    (hApart : e.parts.Pairwise fun a b => a.extent.stop ≤ b.extent.start) : e.Nests := by
  constructor
  · intro d hd
    cases hd with
    | self => exact fun part hPart => (h part hPart).occupies
    | inner hPart hd => exact (h _ hPart).nests.parts_within d hd
  · intro d hd
    cases hd with
    | self => exact hApart
    | inner hPart hd => exact (h _ hPart).nests.parts_apart d hd

/-- All that is in an expression stands where the expression does. -/
theorem Expr.Placed.contains (h : e.Placed p q) (hd : e.Contains d) : d.extent.Occupies p q := by
  induction hd with
  | self => exact h.occupies
  | @inner e part d hPart hd ih =>
      have hWithin := h.nests.parts_within e (.self e) part hPart
      refine ih ⟨hWithin.mono h.occupies.start_ge h.occupies.stop_le, ?_, ?_⟩
      · exact fun c hc => h.nests.parts_within c (.inner hPart hc)
      · exact fun c hc => h.nests.parts_apart c (.inner hPart hc)

theorem Expr.Placed.mono (h : e.Placed p q) (hp : r ≤ p) (hq : q ≤ s) : e.Placed r s :=
  ⟨h.occupies.mono hp hq, h.nests⟩

/-- An expression stands between the ends of its own extent. -/
theorem Expr.Placed.self (h : e.Placed p q) : e.Placed e.extent.start e.extent.stop :=
  ⟨⟨Nat.le_refl _, h.occupies.start_lt_stop, Nat.le_refl _⟩, h.nests⟩

/-! Extents one behind the other. -/

theorem Extent.Occupies.before (hx : x.Occupies p m) (hy : y.Occupies m q) : x.stop ≤ y.start :=
  Nat.le_trans hx.stop_le hy.start_ge

/-- What covers them goes from the start of the first to the end of the second. -/
theorem cover_eq (hx : x.Occupies p m) (hy : y.Occupies m q) :
    x.cover y = ⟨x.start, y.stop⟩ := by
  have hBefore := hx.before hy
  have hFirst := hx.start_lt_stop
  have hSecond := hy.start_lt_stop
  rw [Extent.cover, Nat.min_eq_left (by omega), Nat.max_eq_right (by omega)]

theorem Expr.Placed.first (h : e.Placed p m) (hy : y.Occupies m q) :
    e.Placed e.extent.start y.stop :=
  h.self.mono (Nat.le_refl _)
    (Nat.le_trans (h.occupies.before hy) hy.within.start_le_stop)

theorem Expr.Placed.last (hx : x.Occupies p m) (h : e.Placed m q) :
    e.Placed x.start e.extent.stop :=
  h.self.mono (Nat.le_trans hx.within.start_le_stop (hx.before h.occupies)) (Nat.le_refl _)

/-! Each kind of expression stands where its tokens do. -/

theorem placed_of_token (hx : x.Occupies p q) (hExtent : e.extent = x) (h : e.parts = []) :
    e.Placed p q := by
  refine ⟨hExtent ▸ hx, nests_of_parts ?_ ?_⟩
  · rw [h]
    exact nofun
  · rw [h]
    exact .nil

theorem placed_of_cover (hx : x.Occupies p m) (hy : y.Occupies m q)
    (hExtent : e.extent = x.cover y) (h : ∀ part ∈ e.parts, part.Placed x.start y.stop)
    (hApart : e.parts.Pairwise fun a b => a.extent.stop ≤ b.extent.start) : e.Placed p q := by
  rw [cover_eq hx hy] at hExtent
  refine ⟨?_, nests_of_parts ?_ hApart⟩
  · rw [hExtent]
    exact ⟨hx.start_ge, Nat.lt_of_lt_of_le hx.start_lt_stop
      (Nat.le_trans (hx.before hy) hy.within.start_le_stop), hy.stop_le⟩
  · rwa [hExtent]

/-- An expression of two parts, one behind the other. -/
theorem placed_of_two (hLeft : left.Placed p m) (hRight : right.Placed m q)
    (hExtent : e.extent = left.extent.cover right.extent) (hParts : e.parts = [left, right]) :
    e.Placed p q := by
  refine placed_of_cover hLeft.occupies hRight.occupies hExtent ?_ ?_
  · rw [hParts]
    simpa using ⟨hLeft.first hRight.occupies, hRight.last hLeft.occupies⟩
  · rw [hParts]
    simpa using hLeft.occupies.before hRight.occupies

theorem placed_unary {op : UnaryOp} (hx : x.Occupies p m) (h : e.Placed m q) :
    (Expr.unary (x.cover e.extent) op e).Placed p q := by
  refine placed_of_cover hx h.occupies rfl ?_ (List.pairwise_singleton _ e)
  simpa [Expr.parts] using h.last hx

theorem placed_step {op : StepOp} (h : e.Placed p m) (hx : x.Occupies m q) :
    (Expr.step (e.extent.cover x) op e).Placed p q := by
  refine placed_of_cover h.occupies hx rfl ?_ (List.pairwise_singleton _ e)
  simpa [Expr.parts] using h.first hx

theorem placed_conditional {condition consequent alternate : Expr}
    (hCondition : condition.Placed p m) (hConsequent : consequent.Placed m r)
    (hAlternate : alternate.Placed r q) :
    (Expr.conditional (condition.extent.cover alternate.extent) condition consequent
      alternate).Placed p q := by
  have hLast := hAlternate.mono hConsequent.occupies.le (Nat.le_refl q)
  have hFirst := hCondition.occupies.before hConsequent.occupies
  have hSecond := hConsequent.occupies.before hAlternate.occupies
  refine placed_of_cover hCondition.occupies hLast.occupies rfl ?_ ?_
  · have hMiddle : consequent.Placed condition.extent.start alternate.extent.stop :=
      hConsequent.self.mono (Nat.le_trans hCondition.occupies.within.start_le_stop hFirst)
        (Nat.le_trans hSecond hAlternate.occupies.within.start_le_stop)
    simpa [Expr.parts] using
      ⟨hCondition.first hLast.occupies, hMiddle, hLast.last hCondition.occupies⟩
  · simpa [Expr.parts] using
      ⟨⟨hFirst, hCondition.occupies.before hLast.occupies⟩, hSecond⟩

/-- Expressions one behind another, between a position and an extent behind them. -/
structure Listed (p q : Nat) (es : List Expr) (last : Extent) : Prop where
  items : ∀ e ∈ es, e.Placed p last.start
  apart : es.Pairwise fun a b => a.extent.stop ≤ b.extent.start
  last : last.Occupies p q

theorem listed_nil (h : x.Occupies p q) : Listed p q [] x :=
  ⟨nofun, .nil, h⟩

theorem Listed.cons (he : e.Placed p m) (h : Listed m q es x) : Listed p q (e :: es) x where
  items := by
    refine List.forall_mem_cons.mpr ⟨he.mono (Nat.le_refl p) h.last.start_ge, fun d hd => ?_⟩
    exact (h.items d hd).mono he.occupies.le (Nat.le_refl _)
  apart := List.pairwise_cons.mpr ⟨fun d hd => he.occupies.before (h.items d hd).occupies, h.apart⟩
  last := h.last.mono he.occupies.le (Nat.le_refl q)

/-- They stand between an extent in front of them and the one behind them. -/
theorem Listed.between (hx : x.Occupies p m) (h : Listed m q es y) :
    ∀ e ∈ es, e.Placed x.start y.stop := fun e he =>
  (h.items e he).mono (Nat.le_trans hx.within.start_le_stop hx.stop_le)
    h.last.within.start_le_stop

theorem placed_array (hx : x.Occupies p m) (h : Listed m q es y) :
    (Expr.array (x.cover y) es).Placed p q :=
  placed_of_cover hx h.last rfl (h.between hx) h.apart

theorem placed_object {properties : List Property} (hx : x.Occupies p m)
    (h : Listed m q (properties.map Property.value) y) :
    (Expr.object (x.cover y) properties).Placed p q :=
  placed_of_cover hx h.last rfl (h.between hx) h.apart

theorem placed_call (he : e.Placed p m) (h : Listed m q es y) :
    (Expr.call (e.extent.cover y) e es).Placed p q := by
  refine placed_of_cover he.occupies h.last rfl ?_ ?_
  · exact List.forall_mem_cons.mpr ⟨he.first h.last, h.between he.occupies⟩
  · exact List.pairwise_cons.mpr
      ⟨fun d hd => he.occupies.before (h.items d hd).occupies, h.apart⟩

end

/-! What stands somewhere in a text, by the grammar. -/

theorem placed_of_operand {n p : Nat} {t : Token} {e : Expr} {rest : List Token}
    (h : Aligned n p (t :: rest)) (he : t.operand? = some e) : e.Placed p t.extent.stop := by
  obtain ⟨lexeme, x⟩ := t
  cases lexeme <;> cases he <;> exact placed_of_token (h.first Lexeme.noConfusion) rfl rfl

/-- Where a phrase stands. -/
def Phrase.Placed (p q : Nat) : Phrase → Prop
  | .expression e => e.Placed p q
  | .items _ es last => Listed p q es last
  | .properties ps last => Listed p q (ps.map Property.value) last
  | .property read => read.value.Placed p q

theorem Derives.placed {phrase : Phrase} {ts rest : List Token} (h : Derives ts phrase rest)
    {n p : Nat} (hAligned : Aligned n p ts) : ∃ q, phrase.Placed p q ∧ Aligned n q rest := by
  induction h generalizing p with
  | operand hOperand => exact ⟨_, placed_of_operand hAligned hOperand, hAligned.behind⟩
  -- the extent of what stands in parentheses leaves them out
  | parenthesised _ ih =>
      obtain ⟨q, hInner, hRest⟩ := ih hAligned.tail
      exact ⟨q, hInner, hRest.tail⟩
  | array _ ih =>
      obtain ⟨q, hElements, hRest⟩ := ih hAligned.behind
      exact ⟨q, placed_array (hAligned.first Lexeme.noConfusion) hElements, hRest⟩
  | object _ ih =>
      obtain ⟨q, hProperties, hRest⟩ := ih hAligned.behind
      exact ⟨q, placed_object (hAligned.first Lexeme.noConfusion) hProperties, hRest⟩
  | unary hOp _ ih =>
      obtain ⟨q, hOperand, hRest⟩ := ih hAligned.behind
      have hFirst := hAligned.first fun hFinish => by rw [hFinish] at hOp; cases hOp
      exact ⟨q, placed_unary hFirst hOperand, hRest⟩
  | binary _ _ _ ihLeft ihRight | assign _ _ _ ihLeft ihRight =>
      obtain ⟨m, hLeft, hMore⟩ := ihLeft hAligned
      obtain ⟨q, hRight, hRest⟩ := ihRight hMore.tail
      exact ⟨q, placed_of_two hLeft hRight rfl rfl, hRest⟩
  | conditional _ _ _ ihCondition ihConsequent ihAlternate =>
      obtain ⟨m, hCondition, hMore⟩ := ihCondition hAligned
      obtain ⟨r, hConsequent, hOthers⟩ := ihConsequent hMore.tail
      obtain ⟨q, hAlternate, hRest⟩ := ihAlternate hOthers.tail
      exact ⟨q, placed_conditional hCondition hConsequent hAlternate, hRest⟩
  -- a name behind a dot is one token
  | member _ _ hName ih =>
      obtain ⟨m, hObject, hMore⟩ := ih hAligned
      have hFirst := hMore.tail.first fun hFinish => by rw [hFinish] at hName; cases hName
      exact ⟨_, placed_of_two hObject (placed_of_token hFirst rfl rfl) rfl rfl, hMore.tail.behind⟩
  | index _ _ ih ihProperty =>
      obtain ⟨m, hObject, hMore⟩ := ih hAligned
      obtain ⟨q, hProperty, hRest⟩ := ihProperty hMore.tail
      exact ⟨q, placed_of_two hObject hProperty rfl rfl, hRest.tail⟩
  | call _ _ ih ihItems =>
      obtain ⟨m, hCallee, hMore⟩ := ih hAligned
      obtain ⟨q, hArguments, hRest⟩ := ihItems hMore.tail
      exact ⟨q, placed_call hCallee hArguments, hRest⟩
  | step _ _ ih =>
      obtain ⟨m, hOperand, hMore⟩ := ih hAligned
      exact ⟨_, placed_step hOperand (hMore.first Lexeme.noConfusion), hMore.behind⟩
  | noItem | noProperty =>
      exact ⟨_, listed_nil (hAligned.first Lexeme.noConfusion), hAligned.behind⟩
  | lastItem _ ih | lastProperty _ ih =>
      obtain ⟨m, hItem, hMore⟩ := ih hAligned
      exact ⟨_, (listed_nil (hMore.first Lexeme.noConfusion)).cons hItem, hMore.behind⟩
  | item _ _ ih ihMore | nextProperty _ _ ih ihMore =>
      obtain ⟨m, hItem, hMore⟩ := ih hAligned
      obtain ⟨q, hItems, hRest⟩ := ihMore hMore.tail
      exact ⟨q, hItems.cons hItem, hRest⟩
  | property _ _ ih =>
      obtain ⟨q, hValue, hRest⟩ := ih hAligned.tail.tail
      exact ⟨q, hValue, hRest⟩
  -- the variable that a shorthand stands for is the key itself
  | shorthand hKey =>
      have hFirst := hAligned.first fun hFinish => by rw [hFinish] at hKey; cases hKey
      exact ⟨_, placed_of_token hFirst rfl rfl, hAligned.behind⟩

/-- An expression stands within the text. -/
theorem Derives.placed_within {e : Expr} {ts rest : List Token}
    (h : Derives ts (.expression e) rest) {n p : Nat} (hAligned : Aligned n p ts) :
    e.Placed 0 n ∧ ∃ q, Aligned n q rest := by
  obtain ⟨q, he, hRest⟩ := h.placed hAligned
  exact ⟨Expr.Placed.mono he (Nat.zero_le p) hRest.le, q, hRest⟩

/-! Errors. -/

/-- What is read of a text of `n` characters has a property; or the text is refused, for some
of its characters. -/
def Reports {α : Type} (n : Nat) (P : α → Prop) : Except ParseError α → Prop
  | .ok a => P a
  | .error e => e.extent.Within 0 n

theorem Reports.bind {α β : Type} {n : Nat} {P : α → Prop} {Q : β → Prop}
    {x : Except ParseError α} {f : α → Except ParseError β} (h : Reports n P x)
    (hNext : ∀ a, P a → Reports n Q (f a)) : Reports n Q (x >>= f) := by
  cases x with
  | error e => exact h
  | ok a => exact hNext a h

theorem ParseError.Concerns.within {n p : Nat} {ts : List Token} {e : ParseError}
    (h : e.Concerns ts) (hAligned : Aligned n p ts) : e.extent.Within 0 n := by
  cases h with
  | token ht => exact (hAligned.within _ ht).mono (Nat.zero_le p) (Nat.le_refl n)
  | nothing => exact ⟨Nat.le_refl 0, Nat.le_refl 0, Nat.zero_le n⟩
  | target hSuffix he =>
      obtain ⟨hPlaced, -⟩ := he.placed_within (hAligned.suffix hSuffix)
      exact hPlaced.occupies.within

theorem Yields.reports {α : Type} {n p : Nat} {P Q : α → Prop} {ts : List Token}
    {x : Except ParseError α} (h : Yields ts P x) (hAligned : Aligned n p ts)
    (hImp : ∀ a, P a → Q a) : Reports n Q x := by
  cases x with
  | error e => exact ParseError.Concerns.within h hAligned
  | ok a => exact hImp a h

end HtmlTemplate.Script
