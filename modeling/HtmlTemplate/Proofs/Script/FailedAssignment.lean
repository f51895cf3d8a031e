import Mathlib
import HtmlTemplate.Proofs.Script.Targets

/-! Assignments that fail. A plain name is looked at before it is assigned, and a target without a
name at its root, or whose keys fail, is not stored to. But a part is stored to a variable that has
been made for it: where the root is no local variable, it has become one when the store fails, and
hides the function of its name from then on. -/
namespace HtmlTemplate.Script

section

variable {env : Environment} {invoke : Invoke} {locals after : Locals} {name : String}

theorem Locals.declare_of_none (h : locals.get? name = none) (kind : Declaration) (value : Data) :
    locals.declare kind name value = locals ++ [⟨name, value, kind⟩] := by
  induction locals with
  | nil => rfl
  | cons l rest ih =>
      simp only [Locals.get?, List.find?_cons] at h
      split at h
      · cases h
      · next hName =>
        have hNe : l.name ≠ name := beq_eq_false_iff_ne.mp hName
        simp only [Locals.declare, hNe, ↓reduceIte, ih h, List.cons_append]

/-- The local variables once a name has been made one of them, with its value so far. -/
def Locals.copied (env : Environment) (locals : Locals) (name : String) : Locals :=
  locals.declare .variable name (variableValue env locals name)

theorem Locals.copied_ne (h : locals.get? name = none) : locals.copied env name ≠ locals := by
  intro hSame
  unfold Locals.copied at hSame
  rw [Locals.declare_of_none h] at hSame
  have hLength := congrArg List.length hSame
  simp at hLength

/-- No name has another value then, -/
theorem variableValue_copied (other : String) :
    variableValue env (locals.copied env name) other = variableValue env locals other := by
  by_cases hName : other = name
  · subst hName
    exact variableValue_of_local (Locals.get?_declare_self _ _)
  · unfold variableValue Locals.copied
    rw [Locals.get?_declare _ hName]

/-- but the one that has been copied is a function no longer. -/
theorem callNamed_copied (args : List Data) :
    callNamed env invoke (locals.copied env name) name args = .error (.notAFunction name) := by
  unfold callNamed Locals.copied
  rw [Locals.get?_declare_self]
  rfl

/-- A store that fails has made a variable of a name that was none, if it was to change a part of
it; else it has done nothing. -/
theorem store_failed {keys : List String} {value : Data} {error : EvalError}
    (h : (store env name keys value).run locals = (.error error, after)) :
    after = if keys ≠ [] ∧ locals.get? name = none then locals.copied env name else locals := by
  unfold store at h
  rw [run_get_bind] at h
  cases keys with
  | nil =>
      dsimp only at h
      split at h
      · split at h <;> cases h
        simp
      · cases h
  | cons key rest =>
      simp only [ne_eq, reduceCtorEq, not_false_eq_true, true_and]
      dsimp only at h
      cases hBound : locals.get? name with
      | none =>
          simp only [hBound, Option.isNone_none, ↓reduceIte] at h ⊢
          rw [run_bind] at h
          cases hSet : setAt (variableValue env locals name) (key :: rest) value with
          | ok changed =>
              rw [hSet] at h
              cases h
          | error e =>
              rw [hSet] at h
              cases h
              rfl
      | some l =>
          simp only [hBound, Option.isNone_some, Bool.false_eq_true, ↓reduceIte,
            reduceCtorEq] at h ⊢
          split at h <;> cases h
          rfl

/-- A part of a name that is no local variable is to be assigned, and its keys can be evaluated: the
name has become a variable before it is known whether there is such a part. -/
structure Expr.CopiesRoot (env : Environment) (invoke : Invoke) (locals : Locals) (target : Expr)
    (name : String) : Prop where
  root : target.root? = some name
  unbound : locals.get? name = none
  part : target.path ≠ []
  keys : ∃ written, (keysOf env invoke target.path.reverse).run locals = (.ok written, locals)

/-- The keys of a target are as many as their expressions. -/
theorem keysOf_ne_nil {es : List Expr} (h : es ≠ []) {keys : List String}
    (hRun : (keysOf env invoke es).run locals = (.ok keys, after)) : keys ≠ [] := by
  cases es with
  | nil => exact absurd rfl h
  | cons e rest =>
      rw [keysOf_cons, run_bind] at hRun
      split at hRun
      · rw [run_bind] at hRun
        split at hRun
        · cases hRun
          exact List.cons_ne_nil _ _
        · cases hRun
      · cases hRun

/-- A failing assignment with quiet keys has done nothing, or it has made a variable of the name at
the root of its target. -/
theorem assign_failed {target : Expr} {value : Data} {error : EvalError}
    (hQuiet : ∀ e ∈ target.path, Quiet env invoke locals e)
    (hFailed : (assign env invoke target [] value).run locals = (.error error, after)) :
    (after = locals ∧ ∀ name, ¬ target.CopiesRoot env invoke locals name) ∨
    ∃ name, target.CopiesRoot env invoke locals name ∧ after = locals.copied env name := by
  have hReverse : ∀ e ∈ target.path.reverse, Quiet env invoke locals e :=
    fun e he => hQuiet e (List.mem_reverse.mp he)
  have hKept := congrArg Prod.snd (run_keysOf hReverse)
  rw [assign_eq, run_bind] at hFailed
  rcases hKeys : (keysOf env invoke target.path.reverse).run locals with ⟨result, middle⟩
  rw [hKeys] at hFailed hKept
  obtain rfl : middle = locals := hKept
  cases result with
  | error e =>
      cases hFailed
      refine .inl ⟨rfl, fun name hCopies => ?_⟩
      obtain ⟨written, hWritten⟩ := hCopies.keys
      cases hKeys.symm.trans hWritten
  | ok written =>
      dsimp only at hFailed
      unfold storeAt at hFailed
      split at hFailed
      · next name hRoot =>
        have hAfter := store_failed hFailed
        split at hAfter
        · next hPart =>
          refine .inr ⟨name, ⟨hRoot, hPart.2, fun hNone => hPart.1 ?_, written, hKeys⟩, hAfter⟩
          rw [hNone] at hKeys
          cases hKeys
          rfl
        · next hPart =>
          refine .inl ⟨hAfter, fun other hCopies => hPart ?_⟩
          cases hRoot.symm.trans hCopies.root
          have hSome : target.path.reverse ≠ [] := fun hNone =>
            hCopies.part (List.reverse_eq_nil_iff.mp hNone)
          have hWritten := keysOf_ne_nil hSome hKeys
          exact ⟨by simpa using hWritten, hCopies.unbound⟩
      · next hRoot =>
        cases hFailed
        refine .inl ⟨rfl, fun name hCopies => ?_⟩
        cases hRoot.symm.trans hCopies.root

end

/-- A failing assignment whose keys have no side effects leaves the local variables as they were,
unless it is to a part of a name that was no local variable, and its keys can be evaluated. Then the
name has become a variable with the value it had: no name has another value, but a call of that name
fails from then on, whatever function it stood for. -/
theorem assign_failed_unchanged_iff (env : Environment) (invoke : Invoke) {locals after : Locals}
    {target : Expr} {value : Data} {error : EvalError}
    (hQuiet : ∀ e ∈ target.path, Quiet env invoke locals e)
    (hFailed : (assign env invoke target [] value).run locals = (.error error, after)) :
    (after = locals ↔ ∀ name, ¬ target.CopiesRoot env invoke locals name) ∧
    ∀ name, target.CopiesRoot env invoke locals name →
      after = locals.declare .variable name (variableValue env locals name) ∧
      (∀ other, variableValue env after other = variableValue env locals other) ∧
      ∀ args, callNamed env invoke after name args = .error (.notAFunction name) := by
  rcases assign_failed hQuiet hFailed with ⟨hSame, hNot⟩ | ⟨root, hCopies, rfl⟩
  · exact ⟨iff_of_true hSame hNot, fun name hName => absurd hName (hNot name)⟩
  · refine ⟨iff_of_false (Locals.copied_ne hCopies.unbound) fun hNot => hNot root hCopies, ?_⟩
    intro name hName
    cases hCopies.root.symm.trans hName.root
    exact ⟨rfl, variableValue_copied, callNamed_copied⟩

/-- `o[key].x`, where `o` is a local variable whose `list` is an array. -/
def partOfLocal : Expr :=
  .member ⟨0, 8⟩ (.member ⟨0, 6⟩ (.identifier ⟨0, 1⟩ "o") (.identifier ⟨2, 5⟩ "key") true false)
    (.string ⟨7, 8⟩ "x") false false

def localList : Locals :=
  [⟨"o", .object [("list", .array [])], .constant⟩, ⟨"key", .string "list", .letVariable⟩]

/-- An array has no part of that name; the failure leaves the variable and its array alone. -/
theorem partOfLocal_unchanged :
    (∀ e ∈ partOfLocal.path,
      Quiet .empty (invokeWithin .empty maxCallDepth) localList e) ∧
    (assign .empty (invokeWithin .empty maxCallDepth) partOfLocal [] (.string "1")).run localList =
      (.error (.invalidAssignment "x" "an array"), localList) ∧
    ∀ name, ¬ partOfLocal.CopiesRoot .empty (invokeWithin .empty maxCallDepth) localList name := by
  have hQuiet : ∀ e ∈ partOfLocal.path,
      Quiet .empty (invokeWithin .empty maxCallDepth) localList e :=
    List.forall_mem_cons.mpr
      ⟨quiet_of_assigned rfl, List.forall_mem_singleton.mpr (quiet_of_assigned rfl)⟩
  have hFailed : (assign .empty (invokeWithin .empty maxCallDepth) partOfLocal []
      (.string "1")).run localList =
        (.error (.invalidAssignment "x" "an array"), localList) := by cbv
  exact ⟨hQuiet, hFailed, (assign_failed_unchanged_iff _ _ hQuiet hFailed).1.mp rfl⟩

/-- A function `f` that gives a text. -/
def oneFunction : Environment :=
  { Environment.empty with
    function? := fun name =>
      if name = "f" then some (.script "f" [] [.giveBack (some (.string ⟨7, 13⟩ "done"))])
      else none }

/-- `f.part = 'x'` -/
def assignPart : Expr :=
  .assign ⟨0, 12⟩ .assign
    (.member ⟨0, 6⟩ (.identifier ⟨0, 1⟩ "f") (.string ⟨2, 6⟩ "part") false false)
    (.string ⟨9, 12⟩ "x")

/-- `f()` -/
def callOfFunction : Expr :=
  .call ⟨0, 3⟩ (.identifier ⟨0, 1⟩ "f") []

/-- An assignment to a part of a name that stands for a function fails and is not without effect: a
call of the function, which gives its text in front of the attempt, fails behind it. -/
theorem failed_assignment_hides_function :
    assignPart.evalIn oneFunction [] =
      (.error (.invalidAssignment "part" "undefined"), [⟨"f", .null, .variable⟩]) ∧
    (callOfFunction.evalIn oneFunction []).1 = .ok (.string "done") ∧
    (callOfFunction.evalIn oneFunction [⟨"f", .null, .variable⟩]).1 =
      .error (.notAFunction "f") := by
  refine ⟨?_, ?_, ?_⟩ <;> cbv

end HtmlTemplate.Script
