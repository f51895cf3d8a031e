import Mathlib
import HtmlTemplate.Proofs.Script.Assigning

/-! The binding of a name: its value and how it was declared, or that it is no local variable. Only
declarations of the name and assignments with it at the root change the binding, and no assignment
changes that of a constant whose value has no parts. -/
namespace HtmlTemplate.Script

section

variable {env : Environment} {locals : Locals} {name other : String}

/-- Storing to a name changes no other binding. -/
theorem store_maintains_other (h : other ≠ name) (binding : Option Local) (keys : List String)
    (value : Data) :
    Maintains (fun locals => locals.get? other = binding) (store env name keys value) := by
  have hUpdated (changed : Data) (locals : Locals) (hLocals : locals.get? other = binding) :
      (locals.update name changed).get? other = binding :=
    (Locals.get?_update changed h).trans hLocals
  have hDeclared (kind : Declaration) (v : Data) (locals : Locals)
      (hLocals : locals.get? other = binding) : (locals.declare kind name v).get? other = binding :=
    (Locals.get?_declare v h).trans hLocals
  unfold store
  refine .get_bind fun locals hLocals => ?_
  cases keys with
  | nil =>
      dsimp only
      split
      · split
        · exact .throw _
        · exact .set (hUpdated value locals hLocals)
      · exact .set (hDeclared .variable value locals hLocals)
  | cons key rest =>
      have hBind {x : Eval PUnit} (hx : Maintains (fun locals => locals.get? other = binding) x) :=
        (Maintains.set (hDeclared .variable (variableValue env locals name) locals hLocals)).bind
          fun _ => hx
      dsimp only
      cases setAt (variableValue env locals name) (key :: rest) value with
      | ok changed =>
          split
          · exact hBind (.modify (hUpdated changed))
          · exact .modify (hUpdated changed)
      | error e =>
          split
          · exact hBind (.throw e)
          · exact .throw e

/-- A value that is no array or object has no part that could be changed. -/
theorem setAt_eq_error {target : Data} (hArray : ∀ items, target ≠ .array items)
    (hObject : ∀ fields, target ≠ .object fields) (key : String) (rest : List String)
    (value : Data) : ∃ e, setAt target (key :: rest) value = .error e := by
  cases target with
  | array items => exact absurd rfl (hArray items)
  | object fields => exact absurd rfl (hObject fields)
  | _ => cases rest <;> exact ⟨_, rfl⟩

/-- A constant refuses to be assigned, and a constant without parts to be changed. -/
theorem store_constant {l : Local} (hBound : locals.get? name = some l) (hKind : l.kind = .constant)
    (hArray : ∀ items, l.value ≠ .array items) (hObject : ∀ fields, l.value ≠ .object fields)
    (keys : List String) (value : Data) :
    ∃ e, (store env name keys value).run locals = (.error e, locals) := by
  unfold store
  rw [run_get_bind]
  cases keys with
  | nil =>
      refine ⟨.constantAssignment name, ?_⟩
      simp only [hBound, hKind, ↓reduceIte]
      rfl
  | cons key rest =>
      obtain ⟨e, hError⟩ := setAt_eq_error hArray hObject key rest value
      refine ⟨e, ?_⟩
      simp only [variableValue_of_local hBound, hError, hBound, Option.isNone_some,
        Bool.false_eq_true, ↓reduceIte]
      rfl

/-- No store at all changes the binding of a constant without parts. -/
theorem store_maintains_constant {l : Local} (hKind : l.kind = .constant)
    (hArray : ∀ items, l.value ≠ .array items) (hObject : ∀ fields, l.value ≠ .object fields)
    (keys : List String) (value : Data) :
    Maintains (fun locals => locals.get? other = some l) (store env name keys value) := by
  by_cases hName : other = name
  · subst hName
    intro locals hBound
    obtain ⟨e, hRun⟩ := store_constant hBound hKind hArray hObject keys value
    rw [hRun]
    exact hBound
  · exact store_maintains_other hName _ keys value

/-- Declaring names changes no other binding. -/
theorem declarationsMaintain_other {names : List String} (h : name ∉ names)
    (binding : Option Local) :
    DeclarationsMaintain (fun locals => locals.get? name = binding) names := by
  intro declared hDeclared kind value locals hLocals
  have hOther : name ≠ declared := fun hSame => h (hSame ▸ hDeclared)
  exact (Locals.get?_declare value hOther).trans hLocals

end

/-- Local variables change only through their own name, and constants hold. A program that neither
declares a name nor assigns to it, or to a part of it, leaves the binding of the name as it was:
its value, how it was declared, or that there is none. A name that is bound by `const` to a value
other than an array or an object stays so bound under every program that does not declare it. Both
hold from all local variables, in every environment, however deep the evaluator is and whatever
functions do, and whether the program gives a value or fails. -/
theorem run_keeps_binding (env : Environment) (invoke : Invoke) (body : List Statement)
    (locals : Locals) (name : String) (hDeclared : name ∉ declaredByAll body) :
    (name ∉ assignedByAll body →
      ((run env invoke body).run locals).2.get? name = locals.get? name) ∧
    ∀ l, locals.get? name = some l → l.kind = .constant →
      (∀ items, l.value ≠ .array items) → (∀ fields, l.value ≠ .object fields) →
      ((run env invoke body).run locals).2.get? name = some l := by
  refine ⟨fun hAssigned => ?_, fun l hBound hKind hArray hObject => ?_⟩
  · refine run_maintains (fun other hOther keys value => ?_)
      (declarationsMaintain_other hDeclared _) locals rfl
    have hNe : name ≠ other := fun hSame => hAssigned (hSame ▸ hOther)
    exact store_maintains_other hNe _ keys value
  · refine run_maintains (fun other _ keys value => ?_)
      (declarationsMaintain_other hDeclared _) locals hBound
    exact store_maintains_constant hKind hArray hObject keys value

/-- `list.last = note; limit += '1';` -/
def overLimit : List Statement := [
  .expression (.assign ⟨0, 16⟩ .assign
    (.member ⟨0, 9⟩ (.identifier ⟨0, 4⟩ "list") (.string ⟨5, 9⟩ "last") false false)
    (.identifier ⟨12, 16⟩ "note")),
  .expression (.assign ⟨18, 30⟩ .addAssign (.identifier ⟨18, 23⟩ "limit") (.string ⟨27, 30⟩ "1"))]

/-- A parameter without parts so far, and no functions. -/
def emptyList : Environment :=
  { Environment.empty with value? := fun name => if name = "list" then some (.object []) else none }

/-- A variable that the program only reads, and a constant. -/
def noteAndLimit : Locals :=
  [⟨"note", .string "-", .letVariable⟩, ⟨"limit", .string "3", .constant⟩]

/-- The program makes a variable of the parameter by changing a part of it, and fails at the
constant; the constant and the variable that is only read are as they were. -/
theorem overLimit_keeps_binding :
    (Statement.runIn overLimit emptyList noteAndLimit).1 = .error (.constantAssignment "limit") ∧
    "note" ∉ declaredByAll overLimit ∧ "note" ∉ assignedByAll overLimit ∧
    (Statement.runIn overLimit emptyList noteAndLimit).2.get? "note" =
      some ⟨"note", .string "-", .letVariable⟩ ∧
    "limit" ∉ declaredByAll overLimit ∧ "limit" ∈ assignedByAll overLimit ∧
    (Statement.runIn overLimit emptyList noteAndLimit).2.get? "limit" =
      some ⟨"limit", .string "3", .constant⟩ := by
  have hKept (name : String) := run_keeps_binding emptyList (invokeWithin emptyList maxCallDepth)
    overLimit noteAndLimit name
  exact ⟨by cbv, by decide, by decide, (hKept "note" (by decide)).1 (by decide), by decide,
    by decide, (hKept "limit" (by decide)).2 _ rfl rfl nofun nofun⟩

end HtmlTemplate.Script
