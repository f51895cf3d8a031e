import HtmlTemplate.Proofs.Script.Mirroring
import HtmlTemplate.Script.Evaluation

/-! Extents mean nothing to an expression. Tokens with the same lexemes are read as the same
tree up to extents, and such trees have the same values. -/
namespace HtmlTemplate.Script

/-- Tokens with the same lexemes. -/
def Alike (ts us : List Token) : Prop :=
  ts.map (·.lexeme) = us.map (·.lexeme)

theorem couples_alike : Couples fun _ => Alike where
  head h := .inr (by simpa [List.head?_map] using congrArg List.head? h)
  opens h := (List.cons.inj h).2
  closes h := (List.cons.inj h).2
  other _ h := (List.cons.inj h).2

/-- Texts with the same lexemes are read as the same expression up to extents. -/
theorem parse_alike {source other : String} {ts us : List Token} {e : Expr}
    (hTokens : parserTokens source = .ok ts) (hOther : parserTokens other = .ok us)
    (h : Alike ts us) (hParse : Expr.parse source = .ok e) :
    ∃ f, Expr.parse other = .ok f ∧ SameExpr e f := by
  obtain ⟨x, rest, less, hRead⟩ := (parse_eq_ok hTokens).mp hParse
  obtain ⟨⟨f, others, less'⟩, hSame, hBare, hRest⟩ :=
    assignment_mirrors couples_alike (n := 0) h _ hRead
  obtain ⟨y, later, rfl⟩ := head?_eq_some (by
    simpa [List.head?_map] using (congrArg List.head? hRest).symm)
  exact ⟨f, (parse_eq_ok hOther).mpr ⟨y, later, less', hSame⟩, hBare⟩

/-! Values. -/

section

variable (env : Environment) (invoke : Invoke)

theorem constantMember?_bare (locals : Locals) (object property : Expr) :
    constantMember? env locals object.bare property.bare =
      constantMember? env locals object property := by
  have hOther {name : String} (hName : name ≠ "Math") (x : Extent) (p : Expr) :
      constantMember? env locals (.identifier x name) p = none := by
    unfold constantMember?
    split
    · next hSame =>
      cases hSame
      exact absurd rfl hName
    · rfl
  cases object with
  | identifier x name =>
      by_cases hName : name = "Math"
      · subst hName
        cases property <;> rfl
      · rw [Expr.bare, hOther hName, hOther hName]
  | _ => rfl

theorem isMath_bare (locals : Locals) (e : Expr) :
    isMath env locals e.bare = isMath env locals e := by
  cases e <;> rfl

mutual

/-- An expression without its extents has the same value. -/
theorem eval_bare (e : Expr) : eval env invoke e.bare = eval env invoke e := by
  match e with
  | .number .. | .string .. | .boolean .. | .null .. | .undefined .. | .identifier ..
  | .reference .. => simp only [Expr.bare, eval]
  | .binary _ op left right => simp only [Expr.bare, eval, eval_bare left, eval_bare right]
  | .unary _ op operand => simp only [Expr.bare, eval, eval_bare operand]
  | .step _ op operand => simp only [Expr.bare, eval, eval_bare operand, assign_bare operand]
  | .member _ object property _ _ =>
      simp only [Expr.bare, eval, constantMember?_bare, eval_bare object, propertyKey_bare property]
  | .call _ callee arguments =>
      have hArguments := evalAll_bare arguments
      cases callee with
      | member _ object property _ _ =>
          have hObject := eval_bare object
          have hProperty := propertyKey_bare property
          simp only [Expr.bare, eval, hArguments, isMath_bare, hObject, hProperty]
      | _ => simp only [Expr.bare, eval, hArguments]
  | .conditional _ condition consequent alternate =>
      simp only [Expr.bare, eval, eval_bare condition, eval_bare consequent, eval_bare alternate]
  | .object _ properties => simp only [Expr.bare, eval, evalProperties_bare properties]
  | .array _ elements => simp only [Expr.bare, eval, evalAll_bare elements]
  | .assign _ op target value =>
      simp only [Expr.bare, eval, eval_bare value, eval_bare target, assign_bare target]

theorem evalAll_bare (es : List Expr) :
    evalAll env invoke (bareItems es) = evalAll env invoke es := by
  match es with
  | [] => simp only [bareItems]
  | e :: rest => simp only [bareItems, evalAll, eval_bare e, evalAll_bare rest]

theorem evalProperties_bare (ps : List Property) :
    evalProperties env invoke (bareProperties ps) = evalProperties env invoke ps := by
  match ps with
  | [] => simp only [bareProperties]
  | .mk key e _ :: rest =>
      simp only [bareProperties, Property.bare, evalProperties, eval_bare e,
        evalProperties_bare rest]

theorem propertyKey_bare (e : Expr) : propertyKey env invoke e.bare = propertyKey env invoke e := by
  have hValue := eval_bare e
  cases e with
  | string => simp only [Expr.bare, propertyKey]
  | _ =>
      simp only [Expr.bare] at hValue
      simp only [Expr.bare, propertyKey, hValue]

theorem assign_bare (target : Expr) (keys : List String) (value : Data) :
    assign env invoke target.bare keys value = assign env invoke target keys value := by
  match target with
  | .member _ object property _ _ =>
      have hRest (key : String) := assign_bare object (key :: keys) value
      simp only [Expr.bare, assign, propertyKey_bare property, hRest]
  | .identifier .. => simp only [Expr.bare, assign]
  | .number .. | .string .. | .boolean .. | .null .. | .undefined .. | .reference .. | .binary ..
  | .unary .. | .step .. | .call .. | .conditional .. | .object .. | .array .. | .assign .. =>
      simp only [Expr.bare, assign]

end

end

theorem SameExpr.evalIn {e f : Expr} (h : SameExpr e f) (env : Environment) (locals : Locals) :
    e.evalIn env locals = f.evalIn env locals := by
  unfold Expr.evalIn
  rw [← eval_bare, h, eval_bare]

/-- Texts that are read as the same expression up to extents have the same value. -/
theorem evaluate_same {source other : String} {e f : Expr} (h : Expr.parse source = .ok e)
    (hOther : Expr.parse other = .ok f) (hSame : SameExpr e f) (env : Environment) :
    evaluate other env = evaluate source env := by
  unfold evaluate
  rw [h, hOther]
  dsimp only
  rw [hSame.evalIn]

end HtmlTemplate.Script
