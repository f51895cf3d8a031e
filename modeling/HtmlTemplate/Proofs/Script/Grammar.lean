import HtmlTemplate.Proofs.Result
import HtmlTemplate.Script.Parser

/-! The grammar of expressions, and what the parsers make of tokens. The grammar leaves precedence
out, so that it derives more than is read; what holds of all that can be derived holds of what is
read. The parsers are gone through once, to see that they keep to the grammar. -/
namespace HtmlTemplate.Script

/-! Single tokens. -/

section

variable {ts rest : List Token} {s : Symbol} {less : rest.length < ts.length}

theorem eat?_eq_some {x : Extent} (h : eat? s ts = some ⟨x, rest, less⟩) :
    ts = ⟨.symbol s, x⟩ :: rest := by
  unfold eat? at h
  split at h
  · split at h
    · next hSame =>
      cases h
      rw [hSame]
    · cases h
  · cases h

theorem expect_eq_ok {x : Extent} {expected : String}
    (h : expect s expected ts = .ok ⟨x, rest, less⟩) : ts = ⟨.symbol s, x⟩ :: rest := by
  unfold expect at h
  split at h
  · split at h
    · next hSame =>
      cases h
      rw [hSame]
    · cases h
  · unfold unexpected at h
    split at h <;> cases h

theorem symbol?_eq_some (h : symbol? ts = some ⟨s, rest, less⟩) :
    ∃ x, ts = ⟨.symbol s, x⟩ :: rest := by
  unfold symbol? at h
  split at h
  · cases h
    exact ⟨_, rfl⟩
  · cases h

theorem word?_eq_some {name : String} (h : word? ts = some ⟨name, rest, less⟩) :
    ∃ x, ts = ⟨.identifier name, x⟩ :: rest := by
  unfold word? at h
  split at h
  · cases h
    exact ⟨_, rfl⟩
  · cases h

end

/-- The expression that a token is by itself. -/
def Token.operand? (t : Token) : Option Expr :=
  match t.lexeme with
  | .number x => some (.number t.extent x)
  | .string text => some (.string t.extent text)
  | .reference path => some (.reference t.extent path)
  | .boolean b => some (.boolean t.extent b)
  | .null => some (.null t.extent)
  | .undefined => some (.undefined t.extent)
  | .identifier name => some (.identifier t.extent name)
  | _ => none

/-- The name that a lexeme is behind a dot. -/
def Lexeme.memberName? : Lexeme → Option String
  | .identifier name => some name
  | .boolean b => some (if b then "true" else "false")
  | .null => some "null"
  | .undefined => some "undefined"
  | .typeof => some "typeof"
  | _ => none

/-- The step that a symbol behind an operand is. -/
def StepOp.ofSymbol? : Symbol → Option StepOp
  | .plusPlus => some .increment
  | .minusMinus => some .decrement
  | _ => none

/-! The grammar. -/

/-- What tokens are read as: an expression, what stands between the brackets of one, or a
property. -/
inductive Phrase where
  | expression (e : Expr)
  | items (close : Symbol) (es : List Expr) (last : Extent)
  | properties (ps : List Property) (last : Extent)
  | property (p : Property)

/-- Tokens begin with a phrase, and others are left behind it. -/
inductive Derives : List Token → Phrase → List Token → Prop where
  | operand {t : Token} {e : Expr} {rest : List Token} (h : t.operand? = some e) :
    Derives (t :: rest) (.expression e) rest
  | parenthesised {x y : Extent} {e : Expr} {ts rest : List Token}
    (h : Derives ts (.expression e) (⟨.symbol .closeParen, y⟩ :: rest)) :
    Derives (⟨.symbol .openParen, x⟩ :: ts) (.expression e) rest
  | array {x y : Extent} {es : List Expr} {ts rest : List Token}
    (h : Derives ts (.items .closeBracket es y) rest) :
    Derives (⟨.symbol .openBracket, x⟩ :: ts) (.expression (.array (x.cover y) es)) rest
  | object {x y : Extent} {ps : List Property} {ts rest : List Token}
    (h : Derives ts (.properties ps y) rest) :
    Derives (⟨.symbol .openBrace, x⟩ :: ts) (.expression (.object (x.cover y) ps)) rest
  | unary {t : Token} {op : UnaryOp} {e : Expr} {ts rest : List Token}
    (hOp : UnaryOp.ofLexeme? t.lexeme = some op) (h : Derives ts (.expression e) rest) :
    Derives (t :: ts) (.expression (.unary (t.extent.cover e.extent) op e)) rest
  | binary {s : Symbol} {x : Extent} {op : BinaryOp} {left right : Expr} {ts more rest : List Token}
    (hLeft : Derives ts (.expression left) (⟨.symbol s, x⟩ :: more))
    (hOp : BinaryOp.ofSymbol? s = some op) (hRight : Derives more (.expression right) rest) :
    Derives ts (.expression (.binary (left.extent.cover right.extent) op left right)) rest
  | conditional {x y : Extent} {condition consequent alternate : Expr}
    {ts more others rest : List Token}
    (hCondition : Derives ts (.expression condition) (⟨.symbol .question, x⟩ :: more))
    (hConsequent : Derives more (.expression consequent) (⟨.symbol .colon, y⟩ :: others))
    (hAlternate : Derives others (.expression alternate) rest) :
    Derives ts (.expression (.conditional (condition.extent.cover alternate.extent) condition
      consequent alternate)) rest
  | assign {s : Symbol} {x : Extent} {op : AssignOp} {target value : Expr}
    {ts more rest : List Token}
    (hTarget : Derives ts (.expression target) (⟨.symbol s, x⟩ :: more))
    (hOp : AssignOp.ofSymbol? s = some op) (hValue : Derives more (.expression value) rest) :
    Derives ts (.expression (.assign (target.extent.cover value.extent) op target value)) rest
  | member {s : Symbol} {x : Extent} {t : Token} {name : String} {e : Expr} {ts rest : List Token}
    (h : Derives ts (.expression e) (⟨.symbol s, x⟩ :: t :: rest))
    (hs : s ∈ [.dot, .optionalChain]) (hName : t.lexeme.memberName? = some name) :
    Derives ts (.expression (e.memberOf (.string t.extent name) false (s = .optionalChain))) rest
  | index {x y : Extent} {e property : Expr} {ts more rest : List Token}
    (h : Derives ts (.expression e) (⟨.symbol .openBracket, x⟩ :: more))
    (hProperty : Derives more (.expression property) (⟨.symbol .closeBracket, y⟩ :: rest)) :
    Derives ts (.expression (e.memberOf property true false)) rest
  | call {x y : Extent} {e : Expr} {es : List Expr} {ts more rest : List Token}
    (h : Derives ts (.expression e) (⟨.symbol .openParen, x⟩ :: more))
    (hItems : Derives more (.items .closeParen es y) rest) :
    Derives ts (.expression (.call (e.extent.cover y) e es)) rest
  | step {s : Symbol} {x : Extent} {op : StepOp} {e : Expr} {ts rest : List Token}
    (h : Derives ts (.expression e) (⟨.symbol s, x⟩ :: rest)) (hOp : StepOp.ofSymbol? s = some op) :
    Derives ts (.expression (.step (e.extent.cover x) op e)) rest
  | noItem {close : Symbol} {y : Extent} {rest : List Token} :
    Derives (⟨.symbol close, y⟩ :: rest) (.items close [] y) rest
  | lastItem {close : Symbol} {y : Extent} {e : Expr} {ts rest : List Token}
    (h : Derives ts (.expression e) (⟨.symbol close, y⟩ :: rest)) :
    Derives ts (.items close [e] y) rest
  | item {close : Symbol} {x y : Extent} {e : Expr} {es : List Expr} {ts more rest : List Token}
    (h : Derives ts (.expression e) (⟨.symbol .comma, x⟩ :: more))
    (hMore : Derives more (.items close es y) rest) :
    Derives ts (.items close (e :: es) y) rest
  | noProperty {y : Extent} {rest : List Token} :
    Derives (⟨.symbol .closeBrace, y⟩ :: rest) (.properties [] y) rest
  | lastProperty {y : Extent} {p : Property} {ts rest : List Token}
    (h : Derives ts (.property p) (⟨.symbol .closeBrace, y⟩ :: rest)) :
    Derives ts (.properties [p] y) rest
  | nextProperty {x y : Extent} {p : Property} {ps : List Property} {ts more rest : List Token}
    (h : Derives ts (.property p) (⟨.symbol .comma, x⟩ :: more))
    (hMore : Derives more (.properties ps y) rest) :
    Derives ts (.properties (p :: ps) y) rest
  | property {t : Token} {x : Extent} {key : String} {value : Expr} {ts rest : List Token}
    (hKey : propertyKey? t.lexeme = some key) (h : Derives ts (.expression value) rest) :
    Derives (t :: ⟨.symbol .colon, x⟩ :: ts) (.property (.mk key value false)) rest
  | shorthand {t : Token} {key : String} {rest : List Token}
    (hKey : propertyKey? t.lexeme = some key) :
    Derives (t :: rest) (.property (.mk key (.identifier t.extent key) true)) rest

/-- What an error is about: a token, the lack of one, or an expression that is no target. -/
inductive ParseError.Concerns (whole : List Token) : ParseError → Prop where
  | token {t : Token} {expected : String} (h : t ∈ whole) :
    Concerns whole (.unexpected t.lexeme expected t.extent)
  | nothing {expected : String} : Concerns whole (.unexpected .finish expected ⟨0, 0⟩)
  | target {ts rest : List Token} {e : Expr} (h : ts <:+ whole)
    (he : Derives ts (.expression e) rest) : Concerns whole (.invalidTarget e.extent)

/-! Parsers. -/

/-- What is made of some tokens has a property; or they are refused, because of some of them. -/
def Yields {α : Type} (whole : List Token) (P : α → Prop) (x : Except ParseError α) : Prop :=
  match x with
  | .ok a => P a
  | .error e => e.Concerns whole

namespace Yields

variable {α β : Type} {P : α → Prop} {Q : β → Prop} {whole ts : List Token}

theorem unexpected (h : ts <:+ whole) (expected : String) :
    Yields whole P (Script.unexpected ts expected) := by
  cases ts with
  | nil => exact .nothing
  | cons t rest => exact .token (h.subset List.mem_cons_self)

theorem bind {x : Except ParseError α} {f : α → Except ParseError β} (h : Yields whole P x)
    (hNext : ∀ a, P a → Yields whole Q (f a)) : Yields whole Q (x >>= f) := by
  cases x with
  | error e => exact h
  | ok a => exact hNext a h

theorem of_ok {x : Except ParseError α} {a : α} (h : Yields whole P x) (hx : x = .ok a) : P a := by
  subst hx
  exact h

end Yields

theorem suffix_tail {t : Token} {rest whole : List Token} (h : t :: rest <:+ whole) :
    rest <:+ whole :=
  (List.suffix_cons t rest).trans h

/-- What a parser reads somewhere in some tokens goes together with those it leaves. -/
def Parses {bound : Nat} {α : Type} (whole : List Token) (P : α → List Token → Prop)
    (x : Except ParseError (Parsed bound α)) : Prop :=
  Yields whole (fun r => P r.value r.rest ∧ r.rest <:+ whole) x

namespace Parses

variable {bound inner : Nat} {α β : Type} {P : α → List Token → Prop} {Q : β → List Token → Prop}
  {whole ts rest : List Token}

theorem value {a : α} {less : rest.length < bound} (ha : P a rest) (h : rest <:+ whole) :
    Parses whole P (Except.ok (⟨a, rest, less⟩ : Parsed bound α)) :=
  ⟨ha, h⟩

theorem unexpected (h : ts <:+ whole) (expected : String) :
    Parses whole P (Script.unexpected ts expected : Except ParseError (Parsed bound α)) :=
  Yields.unexpected h expected

theorem bind {x : Except ParseError (Parsed inner α)}
    {f : Parsed inner α → Except ParseError (Parsed bound β)} (h : Parses whole P x)
    (hNext : ∀ a us less, P a us → us <:+ whole → Parses whole Q (f ⟨a, us, less⟩)) :
    Parses whole Q (x >>= f) :=
  Yields.bind h fun r hr => hNext r.value r.rest r.within hr.1 hr.2

theorem expect (h : ts <:+ whole) (s : Symbol) (expected : String) :
    Parses whole (fun x us => ts = ⟨.symbol s, x⟩ :: us) (Script.expect s expected ts) := by
  unfold Script.expect
  split
  · next found extent rest =>
    split
    · next hSame => exact .value (by rw [hSame]) (suffix_tail h)
    · exact .unexpected h _
  · exact .unexpected h _

theorem propertyName (h : ts <:+ whole) :
    Parses whole (fun e us => ∃ t name, t.lexeme.memberName? = some name ∧ ts = t :: us ∧
      e = .string t.extent name) (Script.propertyName ts) := by
  unfold Script.propertyName
  split
  · next lexeme extent rest =>
    dsimp only
    split
    · next name hName =>
      refine .value ⟨⟨lexeme, extent⟩, name, ?_, rfl, rfl⟩ (suffix_tail h)
      cases lexeme <;> exact hName
    · exact .unexpected h _
  · exact .unexpected h _

end Parses

/-! The parsers keep to the grammar, each by the parsers it goes on with. -/

mutual

theorem assignment_parses {whole ts : List Token} (h : ts <:+ whole) :
    Parses whole (fun e => Derives ts (.expression e)) (assignment ts) := by
  rw [assignment]
  refine (conditional_parses h).bind fun target rest left hTarget hRest => ?_
  dsimp only
  split
  · exact .value hTarget hRest
  · next s more less hSymbol =>
    split
    · exact .value hTarget hRest
    · next op hOp =>
      split
      · obtain ⟨x, hSame⟩ := symbol?_eq_some hSymbol
        rw [hSame] at hTarget hRest
        refine (assignment_parses (suffix_tail hRest)).bind fun value last less' hValue hLast => ?_
        exact .value (.assign hTarget hOp hValue) hLast
      · exact .target h hTarget
termination_by (ts.length, 6)

theorem conditional_parses {whole ts : List Token} (h : ts <:+ whole) :
    Parses whole (fun e => Derives ts (.expression e)) (conditional ts) := by
  rw [conditional]
  refine (binary_parses 0 h).bind fun condition rest left hCondition hRest => ?_
  dsimp only
  split
  · exact .value hCondition hRest
  · next x more less hEaten =>
    rw [eat?_eq_some hEaten] at hCondition hRest
    refine (assignment_parses (suffix_tail hRest)).bind
      fun consequent rest₂ less₂ hConsequent hRest₂ => ?_
    refine (Parses.expect hRest₂ _ _).bind fun y rest₃ less₃ hColon hRest₃ => ?_
    rw [hColon] at hConsequent
    refine (assignment_parses hRest₃).bind fun alternate rest₄ less₄ hAlternate hRest₄ => ?_
    exact .value (.conditional hCondition hConsequent hAlternate) hRest₄
termination_by (ts.length, 5)

theorem binary_parses (level : Nat) {whole ts : List Token} (h : ts <:+ whole) :
    Parses whole (fun e => Derives ts (.expression e)) (binary level ts) := by
  rw [binary]
  refine (unary_parses h).bind fun left rest less hLeft hRest => ?_
  exact (operators_parses level hLeft hRest).bind fun all last less' hAll hLast => .value hAll hLast
termination_by (ts.length, 4)

theorem operators_parses (level : Nat) {left : Expr} {whole us ts : List Token}
    (hLeft : Derives us (.expression left) ts) (h : ts <:+ whole) :
    Parses whole (fun e => Derives us (.expression e)) (operators level left ts) := by
  rw [operators]
  split
  · exact .value hLeft h
  · next s rest less hSymbol =>
    split
    · exact .value hLeft h
    · next op hOp =>
      split
      · exact .value hLeft h
      · obtain ⟨x, hSame⟩ := symbol?_eq_some hSymbol
        rw [hSame] at hLeft h
        refine (binary_parses op.precedence (suffix_tail h)).bind
          fun right rest₁ less₁ hRight hRest₁ => ?_
        exact (operators_parses level (.binary hLeft hOp hRight) hRest₁).bind
          fun all rest₂ less₂ hAll hRest₂ => .value hAll hRest₂
termination_by (ts.length, 0)

theorem unary_parses {whole ts : List Token} (h : ts <:+ whole) :
    Parses whole (fun e => Derives ts (.expression e)) (unary ts) := by
  have hPlain := postfixed_parses h
  cases ts with
  | nil =>
      rw [unary]
      exact hPlain.bind fun e rest less he hRest => .value he hRest
  | cons t rest =>
      rw [unary]
      split
      · exact hPlain
      · next op hOp =>
        refine (unary_parses (suffix_tail h)).bind fun operand last less hOperand hLast => ?_
        exact .value (.unary hOp hOperand) hLast
termination_by (ts.length, 3)

theorem postfixed_parses {whole ts : List Token} (h : ts <:+ whole) :
    Parses whole (fun e => Derives ts (.expression e)) (postfixed ts) := by
  rw [postfixed]
  refine (primary_parses h).bind fun operand rest less hOperand hRest => ?_
  exact (suffixes_parses hOperand hRest).bind fun all last less' hAll hLast => .value hAll hLast
termination_by (ts.length, 2)

theorem suffixes_parses {operand : Expr} {whole us ts : List Token}
    (hOperand : Derives us (.expression operand) ts) (h : ts <:+ whole) :
    Parses whole (fun e => Derives us (.expression e)) (suffixes operand ts) := by
  rw [suffixes.eq_def]
  split
  · next s extent rest =>
    have hRest : rest <:+ whole := suffix_tail h
    split
    · refine (Parses.propertyName hRest).bind ?_
      rintro _ rest₁ less₁ ⟨t, name, hName, rfl, rfl⟩ hRest₁
      exact (suffixes_parses (.member hOperand (by simp) hName) hRest₁).bind
        fun all rest₂ less₂ hAll hRest₂ => .value hAll hRest₂
    · refine (Parses.propertyName hRest).bind ?_
      rintro _ rest₁ less₁ ⟨t, name, hName, rfl, rfl⟩ hRest₁
      exact (suffixes_parses (.member hOperand (by simp) hName) hRest₁).bind
        fun all rest₂ less₂ hAll hRest₂ => .value hAll hRest₂
    · refine (assignment_parses hRest).bind fun property rest₁ less₁ hProperty hRest₁ => ?_
      refine (Parses.expect hRest₁ _ _).bind fun y rest₂ less₂ hClose hRest₂ => ?_
      rw [hClose] at hProperty
      exact (suffixes_parses (.index hOperand hProperty) hRest₂).bind
        fun all rest₃ less₃ hAll hRest₃ => .value hAll hRest₃
    · refine (items_parses .closeParen hRest).bind ?_
      rintro ⟨arguments, last⟩ rest₁ less₁ hArguments hRest₁
      exact (suffixes_parses (.call hOperand hArguments) hRest₁).bind
        fun all rest₂ less₂ hAll hRest₂ => .value hAll hRest₂
    · exact .value (.step hOperand rfl) hRest
    · exact .value (.step hOperand rfl) hRest
    · exact .value hOperand h
  · exact .value hOperand h
termination_by (ts.length, 0)
decreasing_by all_goals (subst_vars; decreasing_tactic)

theorem primary_parses {whole ts : List Token} (h : ts <:+ whole) :
    Parses whole (fun e => Derives ts (.expression e)) (primary ts) := by
  rw [primary.eq_def]
  split
  · exact .unexpected h _
  · next lexeme extent rest =>
    have hRest : rest <:+ whole := suffix_tail h
    split
    · exact .value (.operand rfl) hRest
    · exact .value (.operand rfl) hRest
    · exact .value (.operand rfl) hRest
    · exact .value (.operand rfl) hRest
    · exact .value (.operand rfl) hRest
    · exact .value (.operand rfl) hRest
    · exact .value (.operand rfl) hRest
    · refine (assignment_parses hRest).bind fun inner rest₁ less₁ hInner hRest₁ => ?_
      refine (Parses.expect hRest₁ _ _).bind fun y rest₂ less₂ hClose hRest₂ => ?_
      rw [hClose] at hInner
      exact .value (.parenthesised hInner) hRest₂
    · refine (items_parses .closeBracket hRest).bind ?_
      rintro ⟨elements, last⟩ rest₁ less₁ hElements hRest₁
      exact .value (.array hElements) hRest₁
    · refine (properties_parses hRest).bind ?_
      rintro ⟨properties, last⟩ rest₁ less₁ hProperties hRest₁
      exact .value (.object hProperties) hRest₁
    · exact .unexpected h _
termination_by (ts.length, 1)
decreasing_by all_goals (subst_vars; decreasing_tactic)

theorem items_parses (close : Symbol) {whole ts : List Token} (h : ts <:+ whole) :
    Parses whole (fun found => Derives ts (.items close found.1 found.2)) (items close ts) := by
  rw [items]
  split
  · next last rest less hEaten =>
    have hSame : ts = _ := eat?_eq_some hEaten
    rw [hSame] at h
    exact .value (hSame ▸ .noItem) (suffix_tail h)
  · refine (assignment_parses h).bind fun item rest₁ less₁ hItem hRest₁ => ?_
    dsimp only
    split
    · next x rest₂ less₂ hEaten =>
      rw [eat?_eq_some hEaten] at hItem hRest₁
      refine (items_parses close (suffix_tail hRest₁)).bind ?_
      rintro ⟨more, last⟩ rest₃ less₃ hMore hRest₃
      exact .value (.item hItem hMore) hRest₃
    · refine (Parses.expect hRest₁ _ _).bind fun last rest₂ less₂ hClose hRest₂ => ?_
      rw [hClose] at hItem
      exact .value (.lastItem hItem) hRest₂
termination_by (ts.length, 7)

theorem properties_parses {whole ts : List Token} (h : ts <:+ whole) :
    Parses whole (fun found => Derives ts (.properties found.1 found.2)) (properties ts) := by
  rw [properties]
  split
  · next last rest less hEaten =>
    have hSame : ts = _ := eat?_eq_some hEaten
    rw [hSame] at h
    exact .value (hSame ▸ .noProperty) (suffix_tail h)
  · refine (property_parses h).bind fun item rest₁ less₁ hItem hRest₁ => ?_
    dsimp only
    split
    · next x rest₂ less₂ hEaten =>
      rw [eat?_eq_some hEaten] at hItem hRest₁
      refine (properties_parses (suffix_tail hRest₁)).bind ?_
      rintro ⟨more, last⟩ rest₃ less₃ hMore hRest₃
      exact .value (.nextProperty hItem hMore) hRest₃
    · refine (Parses.expect hRest₁ _ _).bind fun last rest₂ less₂ hClose hRest₂ => ?_
      rw [hClose] at hItem
      exact .value (.lastProperty hItem) hRest₂
termination_by (ts.length, 8)

theorem property_parses {whole ts : List Token} (h : ts <:+ whole) :
    Parses whole (fun p => Derives ts (.property p)) (property ts) := by
  rw [property.eq_def]
  split
  · exact .unexpected h _
  · next lexeme extent rest =>
    have hRest : rest <:+ whole := suffix_tail h
    dsimp only
    split
    · exact .unexpected h _
    · next key hKey =>
      split
      · next x rest₁ less₁ hEaten =>
        have hSame : rest = _ := eat?_eq_some hEaten
        rw [hSame] at hRest
        refine (assignment_parses (suffix_tail hRest)).bind fun value rest₂ less₂ hValue hRest₂ => ?_
        exact .value (hSame ▸ .property hKey hValue) hRest₂
      · exact .value (.shorthand hKey) hRest
termination_by (ts.length, 7)
decreasing_by all_goals (subst_vars; decreasing_tactic)

end

/-- What is read as an expression can be derived. -/
theorem derives_of_assignment {ts : List Token} {r : Parsed ts.length Expr}
    (h : assignment ts = .ok r) : Derives ts (.expression r.value) r.rest :=
  (Yields.of_ok (assignment_parses (List.suffix_refl ts)) h).1

end HtmlTemplate.Script
