import HtmlTemplate.Proofs.Script.CallDepth

/-! What an evaluation can do to the local variables. It changes them where it stores to the root of
a target or declares a name, and nowhere else: an invariant that the stores and declarations of a
program keep is kept by running it, whether it gives a value or fails, and whatever it calls. -/
namespace HtmlTemplate.Script

section

variable {env : Environment} {locals : Locals} {name other : String}

theorem Locals.get?_declare_self (kind : Declaration) (value : Data) :
    (locals.declare kind name value).get? name = some ⟨name, value, kind⟩ := by
  induction locals with
  | nil => simp [Locals.declare, Locals.get?]
  | cons l rest ih =>
      simp only [Locals.declare]
      split
      · simp [Locals.get?]
      · next hName =>
        have hNot : (l.name == name) = false := beq_eq_false_iff_ne.mpr hName
        simp only [Locals.get?, List.find?_cons, hNot]
        exact ih

theorem Locals.get?_update (value : Data) (h : other ≠ name) :
    (locals.update name value).get? other = locals.get? other := by
  have hNot : (name == other) = false := beq_eq_false_iff_ne.mpr h.symm
  induction locals with
  | nil => rfl
  | cons l rest ih =>
      simp only [Locals.update]
      split
      · next hSame =>
        subst hSame
        simp [Locals.get?, hNot]
      · simp only [Locals.get?, List.find?_cons] at ih ⊢
        rw [ih]

theorem variableValue_of_local {l : Local} (h : locals.get? name = some l) :
    variableValue env locals name = l.value := by
  unfold variableValue
  rw [h]

end

/-- The name at the root of a target: the variable that is assigned, or whose part is. -/
def Expr.root? : Expr → Option String
  | .identifier _ name => some name
  | .member _ inner _ _ _ => inner.root?
  | _ => none

mutual

/-- The names an expression assigns to: those at the roots of the targets of its assignments and
steps. -/
def Expr.assigned : Expr → List String
  | .binary _ _ left right => left.assigned ++ right.assigned
  | .unary _ _ operand => operand.assigned
  | .step _ _ operand => operand.root?.toList ++ operand.assigned
  | .member _ object property _ _ => object.assigned ++ property.assigned
  | .call _ callee arguments => callee.assigned ++ assignedByItems arguments
  | .conditional _ condition consequent alternate =>
    condition.assigned ++ (consequent.assigned ++ alternate.assigned)
  | .object _ properties => assignedByProperties properties
  | .array _ items => assignedByItems items
  | .assign _ _ target value => target.root?.toList ++ (target.assigned ++ value.assigned)
  | _ => []

/-- The names that expressions assign to. -/
def assignedByItems : List Expr → List String
  | [] => []
  | e :: rest => e.assigned ++ assignedByItems rest

/-- The names that the values of properties assign to. -/
def assignedByProperties : List Property → List String
  | [] => []
  | .mk _ e _ :: rest => e.assigned ++ assignedByProperties rest

end

/-- The names that an expression assigns to, if there is one. -/
def assignedByValue (value : Option Expr) : List String :=
  value.elim [] Expr.assigned

mutual

/-- The names a statement assigns to. -/
def Statement.assigned : Statement → List String
  | .declare _ _ value => assignedByValue value
  | .giveBack value => assignedByValue value
  | .branch condition consequent alternate =>
    condition.assigned ++ (assignedByAll consequent ++ assignedByAll alternate)
  | .block body => assignedByAll body
  | .expression e => e.assigned

/-- The names that statements assign to. -/
def assignedByAll : List Statement → List String
  | [] => []
  | s :: rest => s.assigned ++ assignedByAll rest

end

mutual

/-- The names a statement declares. -/
def Statement.declared : Statement → List String
  | .declare _ name _ => [name]
  | .branch _ consequent alternate => declaredByAll consequent ++ declaredByAll alternate
  | .block body => declaredByAll body
  | .giveBack _ | .expression _ => []

/-- The names that statements declare. -/
def declaredByAll : List Statement → List String
  | [] => []
  | s :: rest => s.declared ++ declaredByAll rest

end

/-! An invariant of the local variables. -/

/-- A computation keeps an invariant of the local variables, however it ends. -/
def Maintains {α : Type} (P : Locals → Prop) (x : Eval α) : Prop :=
  ∀ locals, P locals → P (x.run locals).2

namespace Maintains

variable {α β : Type} {P : Locals → Prop} {x : Eval α}

theorem pure (a : α) : Maintains P (Pure.pure a) :=
  fun _ h => h

theorem throw (e : EvalError) : Maintains P (MonadExcept.throw e : Eval α) :=
  fun _ h => h

theorem lift (r : Except EvalError α) : Maintains P (liftM r : Eval α) := by
  intro locals h
  cases r <;> exact h

theorem bind {f : α → Eval β} (h : Maintains P x) (hNext : ∀ a, Maintains P (f a)) :
    Maintains P (x >>= f) := by
  intro locals hLocals
  have hAfter := h locals hLocals
  rw [run_bind]
  rcases hRun : x.run locals with ⟨result, after⟩
  rw [hRun] at hAfter
  cases result with
  | error e => exact hAfter
  | ok a => exact hNext a after hAfter

theorem get_bind {f : Locals → Eval α} (h : ∀ locals, P locals → Maintains P (f locals)) :
    Maintains P (get >>= f) :=
  fun locals hLocals => h locals hLocals locals hLocals

theorem set {locals : Locals} (h : P locals) : Maintains P (MonadStateOf.set locals : Eval PUnit) :=
  fun _ _ => h

theorem modify {f : Locals → Locals} (h : ∀ locals, P locals → P (f locals)) :
    Maintains P (modify f : Eval PUnit) :=
  h

end Maintains

section

variable {env : Environment} {P : Locals → Prop} {names more : List String}

/-- Storing to any of some names, or to a part of what they hold, keeps an invariant. -/
def StoresMaintain (env : Environment) (P : Locals → Prop) (names : List String) : Prop :=
  ∀ name ∈ names, ∀ keys value, Maintains P (store env name keys value)

theorem storesMaintain_append : StoresMaintain env P (names ++ more) ↔
    StoresMaintain env P names ∧ StoresMaintain env P more :=
  List.forall_mem_append

/-- So does declaring any of them. -/
def DeclarationsMaintain (P : Locals → Prop) (names : List String) : Prop :=
  ∀ name ∈ names, ∀ kind value locals, P locals → P (Locals.declare kind name value locals)

theorem declarationsMaintain_append : DeclarationsMaintain P (names ++ more) ↔
    DeclarationsMaintain P names ∧ DeclarationsMaintain P more :=
  List.forall_mem_append

end

section

variable {env : Environment} {invoke : Invoke} {P : Locals → Prop}

mutual

/-- An expression keeps what storing to the roots of its targets keeps. -/
theorem eval_maintains {e : Expr} (h : StoresMaintain env P e.assigned) :
    Maintains P (eval env invoke e) := by
  match e, h with
  | .number .., _ | .string .., _ | .boolean .., _ | .null _, _ | .undefined _, _
  | .reference .., _ =>
      unfold eval
      exact .pure _
  | .identifier .., _ =>
      unfold eval
      exact .get_bind fun _ _ => .pure _
  | .binary _ op left right, h =>
      obtain ⟨hLeft, hRight⟩ := storesMaintain_append.mp h
      unfold eval
      refine (eval_maintains hLeft).bind fun a => ?_
      split
      · exact .pure _
      · exact (eval_maintains hRight).bind fun _ => .pure _
  | .unary _ op operand, h =>
      have hOperand : StoresMaintain env P operand.assigned := h
      unfold eval
      exact (eval_maintains hOperand).bind fun _ => .pure _
  | .step _ op operand, h =>
      obtain ⟨-, hOperand⟩ := storesMaintain_append.mp h
      unfold eval
      refine (eval_maintains hOperand).bind fun _ => ?_
      exact (assign_maintains h).bind fun _ => .pure _
  | .member _ object property _ _, h =>
      obtain ⟨hObject, hProperty⟩ := storesMaintain_append.mp h
      unfold eval
      refine .get_bind fun locals _ => ?_
      split
      · exact .pure _
      · refine (eval_maintains hObject).bind fun _ => ?_
        exact (propertyKey_maintains hProperty).bind fun _ => .pure _
  | .call _ callee arguments, h =>
      obtain ⟨hCallee, hArguments⟩ := storesMaintain_append.mp h
      unfold eval
      refine (evalAll_maintains hArguments).bind fun args => ?_
      split
      · exact .get_bind fun _ _ => .lift _
      · next object property _ _ =>
        obtain ⟨hObject, hProperty⟩ := storesMaintain_append.mp hCallee
        refine (propertyKey_maintains hProperty).bind fun method => ?_
        refine .get_bind fun locals _ => ?_
        split
        · exact .lift _
        · exact (eval_maintains hObject).bind fun _ => .lift _
      · exact .throw _
  | .conditional _ condition consequent alternate, h =>
      obtain ⟨hCondition, hBranches⟩ := storesMaintain_append.mp h
      obtain ⟨hConsequent, hAlternate⟩ := storesMaintain_append.mp hBranches
      unfold eval
      refine (eval_maintains hCondition).bind fun a => ?_
      split
      · exact eval_maintains hConsequent
      · exact eval_maintains hAlternate
  | .object _ properties, h =>
      have hProperties : StoresMaintain env P (assignedByProperties properties) := h
      unfold eval
      exact (evalProperties_maintains hProperties).bind fun _ => .pure _
  | .array _ items, h =>
      have hItems : StoresMaintain env P (assignedByItems items) := h
      unfold eval
      exact (evalAll_maintains hItems).bind fun _ => .pure _
  | .assign _ op target value, h =>
      obtain ⟨hRoot, hParts⟩ := storesMaintain_append.mp h
      obtain ⟨hTarget, hValue⟩ := storesMaintain_append.mp hParts
      have hStore (result : Data) : Maintains P (assign env invoke target [] result) :=
        assign_maintains (storesMaintain_append.mpr ⟨hRoot, hTarget⟩)
      unfold eval
      refine (eval_maintains hValue).bind fun right => ?_
      dsimp only
      split
      · exact (hStore right).bind fun _ => .pure _
      · exact (eval_maintains hTarget).bind fun _ => (hStore _).bind fun _ => .pure _

theorem evalAll_maintains {es : List Expr} (h : StoresMaintain env P (assignedByItems es)) :
    Maintains P (evalAll env invoke es) := by
  match es, h with
  | [], _ =>
      unfold evalAll
      exact .pure _
  | e :: rest, h =>
      obtain ⟨hFirst, hRest⟩ := storesMaintain_append.mp h
      unfold evalAll
      exact (eval_maintains hFirst).bind fun _ => (evalAll_maintains hRest).bind fun _ => .pure _

theorem evalProperties_maintains {ps : List Property}
    (h : StoresMaintain env P (assignedByProperties ps)) :
    Maintains P (evalProperties env invoke ps) := by
  match ps, h with
  | [], _ =>
      unfold evalProperties
      exact .pure _
  | .mk key e _ :: rest, h =>
      obtain ⟨hFirst, hRest⟩ := storesMaintain_append.mp h
      unfold evalProperties
      refine (eval_maintains hFirst).bind fun _ => ?_
      exact (evalProperties_maintains hRest).bind fun _ => .pure _

theorem propertyKey_maintains {e : Expr} (h : StoresMaintain env P e.assigned) :
    Maintains P (propertyKey env invoke e) := by
  have hValue := eval_maintains h
  rw [propertyKey.eq_def]
  split
  · exact .pure _
  · exact hValue.bind fun _ => .pure _

/-- An assignment stores to the root of its target, if there is a name. -/
theorem assign_maintains {target : Expr}
    (h : StoresMaintain env P (target.root?.toList ++ target.assigned)) {keys : List String}
    {value : Data} : Maintains P (assign env invoke target keys value) := by
  rw [assign.eq_def]
  split
  · next name =>
    obtain ⟨hRoot, -⟩ := storesMaintain_append.mp h
    exact hRoot name List.mem_cons_self _ _
  · next object property _ _ =>
    obtain ⟨hRoot, hParts⟩ := storesMaintain_append.mp h
    obtain ⟨hObject, hProperty⟩ := storesMaintain_append.mp hParts
    have hInner : StoresMaintain env P (object.root?.toList ++ object.assigned) :=
      storesMaintain_append.mpr ⟨hRoot, hObject⟩
    exact (propertyKey_maintains hProperty).bind fun key => assign_maintains hInner
  · exact .throw _

end

mutual

/-- A statement keeps what its stores and declarations keep. -/
theorem exec_maintains {s : Statement} (h : StoresMaintain env P s.assigned)
    (hDeclared : DeclarationsMaintain P s.declared) : Maintains P (exec env invoke s) := by
  match s, h, hDeclared with
  | .declare kind name value, h, hDeclared =>
      have hDeclare (v : Data) : Maintains P (modify (Locals.declare kind name v) : Eval PUnit) :=
        .modify (hDeclared name List.mem_cons_self kind v)
      unfold exec
      cases value with
      | none => exact (hDeclare .null).bind fun _ => .pure _
      | some e => exact (eval_maintains h).bind fun v => (hDeclare v).bind fun _ => .pure _
  | .giveBack value, h, _ =>
      unfold exec
      cases value with
      | none => exact .pure _
      | some e => exact (eval_maintains h).bind fun _ => .pure _
  | .branch condition consequent alternate, h, hDeclared =>
      obtain ⟨hCondition, hBranches⟩ := storesMaintain_append.mp h
      obtain ⟨hConsequent, hAlternate⟩ := storesMaintain_append.mp hBranches
      obtain ⟨hThen, hElse⟩ := declarationsMaintain_append.mp hDeclared
      unfold exec
      refine (eval_maintains hCondition).bind fun a => ?_
      split
      · exact execAll_maintains hConsequent hThen
      · exact execAll_maintains hAlternate hElse
  | .block body, h, hDeclared =>
      have hBody : StoresMaintain env P (assignedByAll body) := h
      have hNames : DeclarationsMaintain P (declaredByAll body) := hDeclared
      unfold exec
      exact execAll_maintains hBody hNames
  | .expression e, h, _ =>
      have hValue : StoresMaintain env P e.assigned := h
      unfold exec
      exact (eval_maintains hValue).bind fun _ => .pure _

theorem execAll_maintains {body : List Statement} (h : StoresMaintain env P (assignedByAll body))
    (hDeclared : DeclarationsMaintain P (declaredByAll body)) :
    Maintains P (execAll env invoke body) := by
  match body, h, hDeclared with
  | [], _, _ =>
      unfold execAll
      exact .pure _
  | s :: rest, h, hDeclared =>
      obtain ⟨hFirst, hRest⟩ := storesMaintain_append.mp h
      obtain ⟨hNames, hOthers⟩ := declarationsMaintain_append.mp hDeclared
      unfold execAll
      refine (exec_maintains hFirst hNames).bind fun flow => ?_
      cases flow with
      | next => exact execAll_maintains hRest hOthers
      | giveBack value => exact .pure _

end

/-- A program keeps what its stores and declarations keep. -/
theorem run_maintains {body : List Statement} (h : StoresMaintain env P (assignedByAll body))
    (hDeclared : DeclarationsMaintain P (declaredByAll body)) :
    Maintains P (run env invoke body) := by
  unfold run
  refine (execAll_maintains h hDeclared).bind fun flow => ?_
  cases flow <;> exact .pure _

end

end HtmlTemplate.Script
