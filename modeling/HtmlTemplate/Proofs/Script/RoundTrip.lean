import HtmlTemplate.Proofs.Script.Reading

/-! Printed expressions are read back. Whatever the extents of the tokens are, a printed
expression is taken for itself up to extents, at its own level without parentheses and at
every higher one with them. -/
namespace HtmlTemplate.Script

/-- Tokens of some lexemes. -/
def Spells (ts : List Token) (lexemes : List Lexeme) : Prop :=
  ts.map (·.lexeme) = lexemes

instance (ts : List Token) (lexemes : List Lexeme) : Decidable (Spells ts lexemes) :=
  inferInstanceAs (Decidable (ts.map (·.lexeme) = lexemes))

section

variable {ts : List Token} {lexemes more : List Lexeme}

theorem spells_nil : Spells ts [] ↔ ts = [] :=
  List.map_eq_nil_iff

theorem spells_cons {lexeme : Lexeme} :
    Spells ts (lexeme :: lexemes) ↔ ∃ x us, ts = ⟨lexeme, x⟩ :: us ∧ Spells us lexemes := by
  constructor
  · intro h
    obtain ⟨t, us, rfl, rfl, hus⟩ := List.map_eq_cons_iff.mp h
    exact ⟨t.extent, us, rfl, hus⟩
  · rintro ⟨x, us, rfl, rfl⟩
    rfl

theorem spells_append : Spells ts (lexemes ++ more) ↔
    ∃ us vs, ts = us ++ vs ∧ Spells us lexemes ∧ Spells vs more :=
  List.map_eq_append_iff

theorem spells_single {lexeme : Lexeme} : Spells ts [lexeme] ↔ ∃ x, ts = [⟨lexeme, x⟩] := by
  simp [spells_cons, spells_nil]

/-- Where an expression begins, no symbol stands that an expression cannot begin with. -/
theorem eat?_of_opening {allowed : String → Prop} (hSpells : Spells ts lexemes)
    (h : Opening allowed lexemes) {s : Symbol} (hs : ¬(Lexeme.symbol s).Opens allowed)
    (rest : List Token) : eat? s (ts ++ rest) = none := by
  obtain ⟨first, others, rfl, hFirst⟩ := h
  obtain ⟨x, us, rfl, -⟩ := spells_cons.mp hSpells
  refine eat?_other ?_
  rintro rfl
  exact hs hFirst

end

/-- Lexemes are taken for an expression of a level, whatever the extents of the tokens. -/
def ReadsBack (level : Nat) (lexemes : List Lexeme) (e : Expr) : Prop :=
  ∀ ts, Spells ts lexemes → ∃ found : Expr, found.bare = e.bare ∧ Takes level ts found

section

variable {level low : Nat} {lexemes : List Lexeme} {e : Expr}

theorem ReadsBack.lower (h : ReadsBack level lexemes e) (hLow : low ≤ level) :
    ReadsBack low lexemes e := by
  intro ts hSpells
  obtain ⟨found, hSame, hTakes⟩ := h ts hSpells
  exact ⟨found, hSame, hTakes.lower hLow⟩

theorem ReadsBack.enclose (h : ReadsBack 0 lexemes e) :
    ReadsBack 10 (enclose true lexemes) e := by
  intro ts hSpells
  obtain ⟨x, _, rfl, hInside⟩ := spells_cons.mp hSpells
  obtain ⟨us, _, rfl, hus, hLast⟩ := spells_append.mp hInside
  obtain ⟨y, rfl⟩ := spells_single.mp hLast
  obtain ⟨found, hSame, hTakes⟩ := h us hus
  exact ⟨found, hSame, takes_parens hTakes⟩

theorem ReadsBack.whole (h : ReadsBack e.level e.print e) : ReadsBack 0 e.print e :=
  h.lower (Nat.zero_le _)

/-- Parentheses are put where the level of an expression is too low. -/
theorem ReadsBack.printAt (h : ReadsBack e.level e.print e) (hLevel : level ≤ 10) :
    ReadsBack level (e.printAt level) e := by
  unfold Expr.printAt
  by_cases hLow : e.level < level
  · rw [decide_eq_true hLow]
    exact h.whole.enclose.lower hLevel
  · rw [decide_eq_false hLow]
    exact h.lower (Nat.le_of_not_lt hLow)

/-- Parentheses are put where an expression would be taken for a block. -/
theorem ReadsBack.printApart (h : ReadsBack e.level e.print e) : ReadsBack 0 e.printApart e := by
  unfold Expr.printApart
  by_cases hBrace : e.print.head? = some (.symbol .openBrace)
  · rw [decide_eq_true hBrace]
    exact h.whole.enclose.lower (Nat.zero_le _)
  · rw [decide_eq_false hBrace]
    exact h.whole

end

theorem readsBack_of_token {lexeme : Lexeme} {e : Expr} (make : Extent → Expr)
    (hMake : ∀ x, (make x).bare = e.bare) (hPlain : UnaryOp.ofLexeme? lexeme = none)
    (h : ∀ x rest, Reads (primary (⟨lexeme, x⟩ :: rest)) (make x) rest) :
    ReadsBack 10 [lexeme] e := by
  intro ts hSpells
  obtain ⟨x, rfl⟩ := spells_single.mp hSpells
  exact ⟨make x, hMake x, takes_of_primary hPlain (h x)⟩

theorem BinaryOp.precedence_le (op : BinaryOp) : op.precedence ≤ 7 := by
  cases op <;> decide

section

variable {allowed : String → Prop}

mutual

/-- A printed expression is read back. -/
theorem readsBack_print {e : Expr} (h : e.WellFormed allowed) : ReadsBack e.level e.print e := by
  cases e with
  | number z x =>
      exact readsBack_of_token (Expr.number · x) (fun _ => rfl) rfl fun _ _ => by
        rw [primary]; exact reads_ok _
  | string z text =>
      exact readsBack_of_token (Expr.string · text) (fun _ => rfl) rfl fun _ _ => by
        rw [primary]; exact reads_ok _
  | boolean z b =>
      exact readsBack_of_token (Expr.boolean · b) (fun _ => rfl) rfl fun _ _ => by
        rw [primary]; exact reads_ok _
  | null z =>
      exact readsBack_of_token Expr.null (fun _ => rfl) rfl fun _ _ => by
        rw [primary]; exact reads_ok _
  | undefined z =>
      exact readsBack_of_token Expr.undefined (fun _ => rfl) rfl fun _ _ => by
        rw [primary]; exact reads_ok _
  | identifier z name =>
      exact readsBack_of_token (Expr.identifier · name) (fun _ => rfl) rfl fun _ _ => by
        rw [primary]; exact reads_ok _
  | reference z path =>
      exact readsBack_of_token (Expr.reference · path) (fun _ => rfl) rfl fun _ _ => by
        rw [primary]; exact reads_ok _
  | binary z op left right =>
      intro ts hSpells
      have hBound := op.precedence_le
      obtain ⟨us, _, rfl, hus, hTail⟩ := spells_append.mp hSpells
      obtain ⟨x, vs, rfl, hvs⟩ := spells_cons.mp hTail
      obtain ⟨left', hLeft, hTakesLeft⟩ := (readsBack_print h.1).printAt (by omega) us hus
      obtain ⟨right', hRight, hTakesRight⟩ := (readsBack_print h.2).printAt (by omega) vs hvs
      refine ⟨_, ?_, takes_binary op hTakesLeft hTakesRight⟩
      simp only [Expr.bare, hLeft, hRight]
  | unary z op operand =>
      intro ts hSpells
      obtain ⟨x, us, rfl, hus⟩ := spells_cons.mp hSpells
      obtain ⟨operand', hOperand, hTakes⟩ :=
        (readsBack_print (e := operand) h).printAt (by omega) us hus
      refine ⟨_, ?_, takes_unary op hTakes⟩
      simp only [Expr.bare, hOperand]
  | step z op operand =>
      intro ts hSpells
      obtain ⟨us, _, rfl, hus, hLast⟩ := spells_append.mp hSpells
      obtain ⟨x, rfl⟩ := spells_single.mp hLast
      obtain ⟨operand', hOperand, hTakes⟩ :=
        (readsBack_print (e := operand) h).printAt (Nat.le_refl 10) us hus
      refine ⟨_, ?_, takes_step op hTakes⟩
      simp only [Expr.bare, hOperand]
  | member z object property computed optional =>
      intro ts hSpells
      obtain ⟨hObject, hComputed, hDotted⟩ := h
      obtain ⟨us, _, rfl, hus, hTail⟩ := spells_append.mp hSpells
      obtain ⟨object', hSame, hTakes⟩ := (readsBack_print hObject).printAt (Nat.le_refl 10) us hus
      cases computed with
      | true =>
          obtain ⟨hProperty, rfl⟩ := hComputed rfl
          obtain ⟨x, _, rfl, hInside⟩ := spells_cons.mp hTail
          obtain ⟨vs, _, rfl, hvs, hLast⟩ := spells_append.mp hInside
          obtain ⟨y, rfl⟩ := spells_single.mp hLast
          obtain ⟨property', hKey, hTakesKey⟩ := (readsBack_print hProperty).whole vs hvs
          refine ⟨_, ?_, takes_brackets hTakes hTakesKey⟩
          simp only [Expr.memberOf, Expr.bare, hSame, hKey]
      | false =>
          obtain ⟨x, _, rfl, hLast⟩ := spells_cons.mp hTail
          obtain ⟨y, rfl⟩ := spells_single.mp hLast
          cases property with
          | string w name =>
              refine ⟨_, ?_, takes_dot hTakes name optional⟩
              simp only [Expr.memberOf, Expr.bare, hSame]
          | _ => exact (hDotted rfl).elim
  | call z callee arguments =>
      intro ts hSpells
      obtain ⟨us, _, rfl, hus, hTail⟩ := spells_append.mp hSpells
      obtain ⟨x, _, rfl, hInside⟩ := spells_cons.mp hTail
      obtain ⟨vs, _, rfl, hvs, hLast⟩ := spells_append.mp hInside
      obtain ⟨y, rfl⟩ := spells_single.mp hLast
      obtain ⟨callee', hCallee, hTakes⟩ := (readsBack_print h.1).printAt (Nat.le_refl 10) us hus
      obtain ⟨arguments', hArguments, hItems⟩ := readsBack_printItems h.2 (.inl rfl) vs hvs
      refine ⟨_, ?_, takes_call hTakes hItems⟩
      simp only [Expr.bare, hCallee, hArguments]
  | conditional z condition consequent alternate =>
      intro ts hSpells
      obtain ⟨hCondition, hConsequent, hAlternate⟩ := h
      obtain ⟨us, _, rfl, hus, hTail⟩ := spells_append.mp hSpells
      obtain ⟨x, _, rfl, hInside⟩ := spells_cons.mp hTail
      obtain ⟨vs, _, rfl, hvs, hLast⟩ := spells_append.mp hInside
      obtain ⟨y, ws, rfl, hws⟩ := spells_cons.mp hLast
      obtain ⟨condition', hFirst, hTakes⟩ := (readsBack_print hCondition).printAt (by omega) us hus
      obtain ⟨consequent', hSecond, hTakesSecond⟩ := (readsBack_print hConsequent).whole vs hvs
      obtain ⟨alternate', hThird, hTakesThird⟩ := (readsBack_print hAlternate).whole ws hws
      refine ⟨_, ?_, takes_conditional hTakes hTakesSecond hTakesThird⟩
      simp only [Expr.bare, hFirst, hSecond, hThird]
  | object z properties =>
      intro ts hSpells
      obtain ⟨x, _, rfl, hInside⟩ := spells_cons.mp hSpells
      obtain ⟨us, _, rfl, hus, hLast⟩ := spells_append.mp hInside
      obtain ⟨y, rfl⟩ := spells_single.mp hLast
      obtain ⟨properties', hSame, hTakes⟩ := readsBack_printProperties h us hus
      refine ⟨_, ?_, takes_object hTakes⟩
      simp only [Expr.bare, hSame]
  | array z elements =>
      intro ts hSpells
      obtain ⟨x, _, rfl, hInside⟩ := spells_cons.mp hSpells
      obtain ⟨us, _, rfl, hus, hLast⟩ := spells_append.mp hInside
      obtain ⟨y, rfl⟩ := spells_single.mp hLast
      obtain ⟨elements', hSame, hTakes⟩ := readsBack_printItems h (.inr rfl) us hus
      refine ⟨_, ?_, takes_array hTakes⟩
      simp only [Expr.bare, hSame]
  | assign z op target value =>
      intro ts hSpells
      obtain ⟨hIs, hTarget, hValue⟩ := h
      obtain ⟨us, _, rfl, hus, hTail⟩ := spells_append.mp hSpells
      obtain ⟨x, vs, rfl, hvs⟩ := spells_cons.mp hTail
      obtain ⟨target', hFirst, hTakes⟩ := readsBack_print hTarget us hus
      obtain ⟨value', hSecond, hTakesValue⟩ := (readsBack_print hValue).whole vs hvs
      have hLevel := level_of_isTarget hIs
      have hIs' : target'.isTarget = true := by
        rw [← isTarget_bare, hFirst, isTarget_bare, hIs]
      refine ⟨_, ?_, takes_assign op (hTakes.lower (by omega)) hIs' hTakesValue⟩
      simp only [Expr.bare, hFirst, hSecond]

/-- The same of expressions separated by commas, -/
theorem readsBack_printItems {es : List Expr} (h : WellFormedItems allowed es) {close : Symbol}
    (hClose : IsListClose close) (ts : List Token) (hSpells : Spells ts (printItems es)) :
    ∃ found, bareItems found = bareItems es ∧ TakesItems close ts found := by
  have hApart : ¬(Lexeme.symbol close).Opens allowed := by
    rcases hClose with rfl | rfl <;> simp [Lexeme.Opens]
  match es with
  | [] =>
      cases spells_nil.mp hSpells
      exact ⟨[], rfl, takesItems_nil⟩
  | [e] =>
      obtain ⟨e', hSame, hTakes⟩ := (readsBack_print h.1).whole ts hSpells
      have hHead := eat?_of_opening hSpells (opening_print h.1) hApart
      refine ⟨[e'], ?_, takesItems_single hClose hTakes hHead⟩
      simp only [bareItems, hSame]
  | e :: next :: rest =>
      obtain ⟨us, _, rfl, hus, hTail⟩ := spells_append.mp hSpells
      obtain ⟨x, vs, rfl, hvs⟩ := spells_cons.mp hTail
      obtain ⟨e', hSame, hTakes⟩ := (readsBack_print h.1).whole us hus
      have hHead := eat?_of_opening hus (opening_print h.1) hApart
      obtain ⟨others, hOthers, hMore⟩ := readsBack_printItems h.2 hClose vs hvs
      refine ⟨e' :: others, ?_, takesItems_cons hTakes hHead hMore⟩
      rw [bareItems, bareItems, hSame, hOthers]

/-- of a property, -/
theorem readsBack_printProperty {p : Property} (h : p.WellFormed allowed) (ts : List Token)
    (hSpells : Spells ts p.print) :
    ∃ found : Property, found.bare = p.bare ∧ TakesProperty ts found ∧
      ∀ more, eat? .closeBrace (ts ++ more) = none := by
  obtain ⟨key, value, shorthand⟩ := p
  obtain ⟨hShort, hFull⟩ := h
  obtain ⟨x, us, rfl, hTail⟩ := spells_cons.mp hSpells
  have hKey := propertyKey?_keyLexeme key
  have hHead (more : List Token) := eat?_of_propertyKey (x := x) hKey .closeBrace (us ++ more)
  cases shorthand with
  | true =>
      cases spells_nil.mp hTail
      cases value with
      | identifier y name =>
          cases hShort rfl
          refine ⟨_, ?_, takesProperty_shorthand hKey, hHead⟩
          simp only [Property.bare, Expr.bare]
      | _ => exact (hShort rfl).elim
  | false =>
      obtain ⟨y, vs, rfl, hvs⟩ := spells_cons.mp hTail
      obtain ⟨value', hSame, hTakes⟩ := (readsBack_print (hFull rfl)).whole vs hvs
      refine ⟨_, ?_, takesProperty_value hKey hTakes, hHead⟩
      simp only [Property.bare, hSame]

/-- and of properties separated by commas. -/
theorem readsBack_printProperties {ps : List Property} (h : WellFormedProperties allowed ps)
    (ts : List Token) (hSpells : Spells ts (printProperties ps)) :
    ∃ found, bareProperties found = bareProperties ps ∧ TakesProperties ts found := by
  match ps with
  | [] =>
      cases spells_nil.mp hSpells
      exact ⟨[], rfl, takesProperties_nil⟩
  | [p] =>
      obtain ⟨p', hSame, hTakes, hHead⟩ := readsBack_printProperty h.1 ts hSpells
      refine ⟨[p'], ?_, takesProperties_single hTakes hHead⟩
      simp only [bareProperties, hSame]
  | p :: next :: rest =>
      obtain ⟨us, _, rfl, hus, hTail⟩ := spells_append.mp hSpells
      obtain ⟨x, vs, rfl, hvs⟩ := spells_cons.mp hTail
      obtain ⟨p', hSame, hTakes, hHead⟩ := readsBack_printProperty h.1 us hus
      obtain ⟨others, hOthers, hMore⟩ := readsBack_printProperties h.2 vs hvs
      refine ⟨p' :: others, ?_, takesProperties_cons hTakes hHead hMore⟩
      rw [bareProperties, bareProperties, hSame, hOthers]

end

end

end HtmlTemplate.Script
