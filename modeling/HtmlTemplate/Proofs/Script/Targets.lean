import HtmlTemplate.Proofs.Result
import HtmlTemplate.Proofs.Script.Assigning

/-! The targets of assignments: a variable or a part of one, told by the name at the root and the
expressions of the keys that lead from there. A target is read by following the keys from the first
to the last. It is assigned by evaluating the keys from the last to the first and storing then. -/
namespace HtmlTemplate.Script

/-- The expressions of the keys that lead from the root of a target, from the first to the last. -/
def Expr.path : Expr → List Expr
  | .member _ inner property _ _ => inner.path ++ [property]
  | _ => []

/-- What a target is read as where keys lead to it, given from the last to the first. A constant of
`Math` is found as it stands. -/
def Expr.found (env : Environment) (locals : Locals) : Expr → List String → Data
  | .identifier _ name, _ => variableValue env locals name
  | .member _ inner property _ _, key :: before =>
    match constantMember? env locals inner property with
    | some value => value
    | none => getProperty (inner.found env locals before) key
  | _, _ => .null

/-- The keys that expressions stand for, evaluated in their order. -/
def keysOf (env : Environment) (invoke : Invoke) (es : List Expr) : Eval (List String) :=
  es.mapM (propertyKey env invoke)

/-- Stores where keys lead from the root of a target. There may be no name at the root. -/
def storeAt (env : Environment) (target : Expr) (keys : List String) (value : Data) : Eval Unit :=
  match target.root? with
  | some name => store env name keys value
  | none => throw (.invalidAssignment (keys.getLast?.getD "") "expression")

section

variable {env : Environment} {invoke : Invoke} {locals : Locals} {e : Expr} {es more : List Expr}

@[simp] theorem keysOf_nil : keysOf env invoke [] = pure [] :=
  rfl

theorem keysOf_cons : keysOf env invoke (e :: es) = (do
    let key ← propertyKey env invoke e
    let keys ← keysOf env invoke es
    return key :: keys) :=
  List.mapM_cons

theorem keysOf_append : keysOf env invoke (es ++ more) = (do
    let keys ← keysOf env invoke es
    let behind ← keysOf env invoke more
    return keys ++ behind) :=
  List.mapM_append

/-- An assignment evaluates the keys from the last to the first and then stores. -/
theorem assign_eq (target : Expr) (keys : List String) (value : Data) :
    assign env invoke target keys value = (do
      let written ← keysOf env invoke target.path.reverse
      storeAt env target (written.reverse ++ keys) value) := by
  fun_induction Expr.path target generalizing keys with
  | case1 x inner property computed optional ih =>
      unfold assign
      simp only [ih, List.reverse_append, List.reverse_cons, List.reverse_nil, List.nil_append,
        List.singleton_append, keysOf_cons, bind_assoc, pure_bind, List.append_assoc]
      rfl
  | case2 target hOther =>
      simp only [List.reverse_nil, keysOf_nil, pure_bind, List.nil_append]
      cases target with
      | member x inner property computed optional =>
          exact absurd rfl (hOther x inner property computed optional)
      | _ =>
          unfold assign
          rfl

/-- Only a member of `Math` with a plain name is one of its constants. -/
theorem constantMember?_eq_some {object property : Expr} {value : Data}
    (h : constantMember? env locals object property = some value) :
    ∃ x y name, object = .identifier x "Math" ∧ property = .string y name := by
  unfold constantMember? at h
  split at h
  · next x y name => exact ⟨x, y, name, rfl, rfl⟩
  · cases h

/-- A target is read where its keys lead to from the root, evaluated from the first to the last. -/
theorem eval_target {target : Expr} {name : String} (hRoot : target.root? = some name) :
    (eval env invoke target).run locals = (do
      let keys ← keysOf env invoke target.path
      return target.found env locals keys.reverse : Eval Data).run locals := by
  fun_induction Expr.path target with
  | case1 x inner property computed optional ih =>
      have hInner := ih hRoot
      unfold eval
      rw [run_get_bind]
      cases hConstant : constantMember? env locals inner property with
      | some value =>
          obtain ⟨y, z, key, rfl, rfl⟩ := constantMember?_eq_some hConstant
          have hKey : propertyKey env invoke (.string z key) = pure key := by
            unfold propertyKey
            rfl
          simp only [Expr.path, List.nil_append, keysOf_cons, keysOf_nil, hKey, pure_bind,
            List.reverse_cons, List.reverse_nil, Expr.found, hConstant]
      | none =>
          refine (run_bind_congr hInner fun _ _ _ => rfl).trans ?_
          simp only [keysOf_append, keysOf_cons, keysOf_nil, bind_assoc, pure_bind,
            List.reverse_append, List.reverse_cons, List.reverse_nil, List.nil_append,
            List.singleton_append, Expr.found, hConstant]
  | case2 target hOther =>
      cases target with
      | identifier x name =>
          unfold eval
          rfl
      | member x inner property computed optional =>
          exact absurd rfl (hOther x inner property computed optional)
      | _ => cases hRoot

end

/-! Keys without side effects. -/

section

variable {env : Environment} {invoke : Invoke} {locals : Locals} {e : Expr} {es : List Expr}

/-- Evaluating a key leaves the local variables as they are, whether it gives a key or fails. -/
def Quiet (env : Environment) (invoke : Invoke) (locals : Locals) (e : Expr) : Prop :=
  Maintains (· = locals) (propertyKey env invoke e)

/-- An expression without assignments and steps is quiet: functions have local variables of their
own. -/
theorem quiet_of_assigned (h : e.assigned = []) : Quiet env invoke locals e := by
  apply propertyKey_maintains
  rw [h]
  exact List.forall_mem_nil _

/-- Quiet keys are each what they are at the beginning, -/
theorem run_keysOf (h : ∀ e ∈ es, Quiet env invoke locals e) :
    (keysOf env invoke es).run locals =
      (es.mapM fun e => ((propertyKey env invoke e).run locals).1, locals) := by
  induction es with
  | nil => rfl
  | cons e rest ih =>
      obtain ⟨hFirst, hRest⟩ := List.forall_mem_cons.mp h
      have hSame : ((propertyKey env invoke e).run locals).2 = locals := hFirst locals rfl
      rw [keysOf_cons, run_bind, List.mapM_cons]
      rcases hKey : (propertyKey env invoke e).run locals with ⟨result, after⟩
      rw [hKey] at hSame
      obtain rfl : after = locals := hSame
      cases result with
      | error error => rfl
      | ok key =>
          dsimp only
          rw [run_bind, ih hRest]
          cases rest.mapM fun e => ((propertyKey env invoke e).run after).1 <;> rfl

/-- so that they are the same in whatever order they are evaluated. -/
theorem keysOf_reverse (h : ∀ e ∈ es, Quiet env invoke locals e) {keys : List String}
    {after : Locals} (hKeys : (keysOf env invoke es).run locals = (.ok keys, after)) :
    (keysOf env invoke es.reverse).run locals = (.ok keys.reverse, locals) := by
  have hReverse : ∀ e ∈ es.reverse, Quiet env invoke locals e :=
    fun e he => h e (List.mem_reverse.mp he)
  have hOk := congrArg Prod.fst ((run_keysOf h).symm.trans hKeys)
  rw [run_keysOf hReverse]
  exact congrArg (·, locals) (mapM_reverse_eq_ok hOk)

end

end HtmlTemplate.Script
