import HtmlTemplate.Proofs.Script.CallDepth

/-! Kinds of failures. A script text that is malformed fails before anything is evaluated; an
expression that has been read fails in other ways only, as far as the functions it calls do. -/
namespace HtmlTemplate

/-- The kinds of failures, without what they tell of the failure. -/
inductive FailureKind where
  | malformed
  | notAFunction
  | constantAssignment
  | invalidAssignment
  | digitsOutOfRange
  | invalidCount
  | textTooLong
  | callDepth
  deriving Repr, DecidableEq

def EvalError.kind : EvalError → FailureKind
  | .malformed _ => .malformed
  | .notAFunction _ => .notAFunction
  | .constantAssignment _ => .constantAssignment
  | .invalidAssignment .. => .invalidAssignment
  | .digitsOutOfRange => .digitsOutOfRange
  | .invalidCount _ => .invalidCount
  | .textTooLong => .textTooLong
  | .callDepth => .callDepth

namespace Script

/-- A result that is no failure of a text. -/
def WellFormedResult {α : Type} (r : Except EvalError α) : Prop :=
  ∀ e, r = .error e → e.kind ≠ .malformed

/-- A computation that does not fail as a text does. -/
def Evaluates {α : Type} (x : Eval α) : Prop :=
  ∀ locals, WellFormedResult (x.run locals).1

section

variable {α β : Type} {a : α} {e : EvalError} {r : Except EvalError α}

theorem wellFormedResult_ok : WellFormedResult (.ok a : Except EvalError α) :=
  nofun

theorem wellFormedResult_error (h : e.kind ≠ .malformed) :
    WellFormedResult (.error e : Except EvalError α) := by
  rintro _ ⟨⟩
  exact h

theorem WellFormedResult.map (h : WellFormedResult r) (f : α → β) : WellFormedResult (r.map f) := by
  cases r with
  | error e => exact wellFormedResult_error (h e rfl)
  | ok a => exact wellFormedResult_ok

end

namespace Evaluates

variable {α β : Type} {x : Eval α}

theorem pure (a : α) : Evaluates (Pure.pure a) :=
  fun _ => wellFormedResult_ok

theorem throw {e : EvalError} (h : e.kind ≠ .malformed) :
    Evaluates (MonadExcept.throw e : Eval α) :=
  fun _ => wellFormedResult_error h

theorem lift {r : Except EvalError α} (h : WellFormedResult r) : Evaluates (liftM r : Eval α) := by
  intro locals
  cases r <;> exact h

theorem bind {f : α → Eval β} (h : Evaluates x) (hNext : ∀ a, Evaluates (f a)) :
    Evaluates (x >>= f) := by
  intro locals
  have hFirst := h locals
  rw [run_bind]
  rcases hRun : x.run locals with ⟨result, after⟩
  rw [hRun] at hFirst
  cases result with
  | error e => exact wellFormedResult_error (hFirst e rfl)
  | ok a => exact hNext a after

theorem get_bind {f : Locals → Eval α} (h : ∀ locals, Evaluates (f locals)) :
    Evaluates (get >>= f) :=
  fun locals => h locals locals

theorem set (locals : Locals) : Evaluates (MonadStateOf.set locals : Eval PUnit) :=
  fun _ => wellFormedResult_ok

theorem modify (f : Locals → Locals) : Evaluates (modify f : Eval PUnit) :=
  fun _ => wellFormedResult_ok

end Evaluates

/-! What functions, methods and assignments can refuse. -/

theorem wellFormedResult_setProperty (target : Data) (key : String) (value : Data) :
    WellFormedResult (setProperty target key value) := by
  unfold setProperty
  split
  · exact wellFormedResult_ok
  · split
    · exact wellFormedResult_ok
    · exact wellFormedResult_error (by simp [EvalError.kind])
  · exact wellFormedResult_error (by simp [EvalError.kind])

theorem wellFormedResult_setAt (target : Data) (keys : List String) (value : Data) :
    WellFormedResult (setAt target keys value) := by
  induction keys generalizing target with
  | nil => exact wellFormedResult_ok
  | cons key rest ih =>
      cases rest with
      | nil => exact wellFormedResult_setProperty target key value
      | cons next more =>
          unfold setAt
          split
          · split
            · next inner _ => exact (ih inner).map _
            · exact wellFormedResult_error (by simp [EvalError.kind])
          · split
            · next inner _ => exact (ih inner).map _
            · exact wellFormedResult_error (by simp [EvalError.kind])
          · exact wellFormedResult_error (by simp [EvalError.kind])

theorem wellFormedResult_callMath (name : String) (args : List Data) :
    WellFormedResult (callMath name args) := by
  have hTotal (name : String) (f : List Data → Data) (args : List Data) :
      WellFormedResult ((Builtin.total name f).run args) := wellFormedResult_ok
  have hNumeric (name : String) (f : Float → Float) (args : List Data) :
      WellFormedResult ((Builtin.numeric name f).run args) := wellFormedResult_ok
  have hFunctions : ∀ b ∈ Builtin.Math.functions, ∀ args, WellFormedResult (b.run args) := by
    simp only [Builtin.Math.functions, Builtin.Math.constant, List.forall_mem_cons,
      List.not_mem_nil, false_implies, implies_true, and_true, hTotal, hNumeric]
  unfold callMath
  split
  · exact wellFormedResult_ok
  · exact wellFormedResult_ok
  · split
    · next b hFound =>
      split
      · exact hFunctions b (List.mem_of_find?_eq_some hFound) args
      · exact wellFormedResult_error (by simp [EvalError.kind])
    · exact wellFormedResult_error (by simp [EvalError.kind])

theorem wellFormedResult_toFixed (args : List Data) :
    WellFormedResult (Builtin.Number.toFixed args) := by
  unfold Builtin.Number.toFixed
  dsimp only
  repeat' split
  all_goals first | exact wellFormedResult_ok | exact wellFormedResult_error (by simp [EvalError.kind])

theorem wellFormedResult_repeated (text : String) (count : Data) :
    WellFormedResult (Builtin.Text.repeated text count) := by
  unfold Builtin.Text.repeated
  repeat' split
  all_goals first | exact wellFormedResult_ok | exact wellFormedResult_error (by simp [EvalError.kind])

theorem wellFormedResult_method {text name : String} {args : List Data}
    {r : Except EvalError Data} (h : Builtin.Text.method? text name args = some r) :
    WellFormedResult r := by
  unfold Builtin.Text.method? at h
  dsimp only at h
  split at h <;> cases h
  case h_15 => exact wellFormedResult_repeated _ _
  all_goals exact wellFormedResult_ok

theorem wellFormedResult_callMethod (receiver : Data) (name : String) (args : List Data) :
    WellFormedResult (callMethod receiver name args) := by
  unfold callMethod
  extract_lets missing plain
  have hMissing : WellFormedResult (.error missing : Except EvalError Data) :=
    wellFormedResult_error (by simp [EvalError.kind])
  have hPlain : WellFormedResult plain := by
    dsimp only [plain]
    split
    · exact wellFormedResult_toFixed _
    · exact wellFormedResult_ok
    · exact hMissing
  split
  · split
    · exact hPlain
    · next text _ =>
      cases hFound : Builtin.Text.method? text name args with
      | none => exact hMissing
      | some r => exact wellFormedResult_method hFound
  · split
    · exact wellFormedResult_ok
    · exact hMissing
  · exact hPlain

theorem store_evaluates (env : Environment) (name : String) (keys : List String) (value : Data) :
    Evaluates (store env name keys value) := by
  unfold store
  refine .get_bind fun locals => ?_
  cases keys with
  | nil =>
      dsimp only
      split
      · split
        · exact .throw (by simp [EvalError.kind])
        · exact .set _
      · exact .set _
  | cons key rest =>
      have hSet := wellFormedResult_setAt (variableValue env locals name) (key :: rest) value
      dsimp only
      generalize setAt (variableValue env locals name) (key :: rest) value = result at hSet
      cases result with
      | ok changed =>
          split
          · exact (Evaluates.set _).bind fun _ => .modify _
          · exact .modify _
      | error e =>
          split
          · exact (Evaluates.set _).bind fun _ => .throw (hSet e rfl)
          · exact .throw (hSet e rfl)

/-! The evaluator, by its own recursion. -/

/-- The functions that script text can call fail in other ways than a text does. -/
def CallsEvaluate (env : Environment) (invoke : Invoke) : Prop :=
  ∀ name f, env.function? name = some f → ∀ args, WellFormedResult (invoke f args)

section

variable {env : Environment} {invoke : Invoke}

theorem wellFormedResult_callNamed (h : CallsEvaluate env invoke) (locals : Locals) (name : String)
    (args : List Data) : WellFormedResult (callNamed env invoke locals name args) := by
  unfold callNamed
  split
  · exact wellFormedResult_error (by simp [EvalError.kind])
  · split
    · next f hFunction => exact h name f hFunction args
    · split
      · exact wellFormedResult_ok
      · exact wellFormedResult_error (by simp [EvalError.kind])

mutual

/-- An expression that has been read does not fail as a text does. -/
theorem eval_evaluates (h : CallsEvaluate env invoke) (e : Expr) :
    Evaluates (eval env invoke e) := by
  match e with
  | .number .. | .string .. | .boolean .. | .null _ | .undefined _ | .reference .. =>
      unfold eval
      exact .pure _
  | .identifier .. =>
      unfold eval
      exact .get_bind fun _ => .pure _
  | .binary _ op left right =>
      unfold eval
      refine (eval_evaluates h left).bind fun a => ?_
      split
      · exact .pure _
      · exact (eval_evaluates h right).bind fun _ => .pure _
  | .unary _ op operand =>
      unfold eval
      exact (eval_evaluates h operand).bind fun _ => .pure _
  | .step _ op operand =>
      unfold eval
      refine (eval_evaluates h operand).bind fun _ => ?_
      exact (assign_evaluates h operand [] _).bind fun _ => .pure _
  | .member _ object property _ _ =>
      unfold eval
      refine .get_bind fun locals => ?_
      split
      · exact .pure _
      · refine (eval_evaluates h object).bind fun _ => ?_
        exact (propertyKey_evaluates h property).bind fun _ => .pure _
  | .call _ callee arguments =>
      unfold eval
      refine (evalAll_evaluates h arguments).bind fun args => ?_
      split
      · exact .get_bind fun locals => .lift (wellFormedResult_callNamed h locals _ args)
      · next object property _ _ =>
        refine (propertyKey_evaluates h property).bind fun method => ?_
        refine .get_bind fun locals => ?_
        split
        · exact .lift (wellFormedResult_callMath method args)
        · exact (eval_evaluates h object).bind fun receiver =>
            .lift (wellFormedResult_callMethod receiver method args)
      · exact .throw (by simp [EvalError.kind])
  | .conditional _ condition consequent alternate =>
      unfold eval
      refine (eval_evaluates h condition).bind fun a => ?_
      split
      · exact eval_evaluates h consequent
      · exact eval_evaluates h alternate
  | .object _ properties =>
      unfold eval
      exact (evalProperties_evaluates h properties).bind fun _ => .pure _
  | .array _ items =>
      unfold eval
      exact (evalAll_evaluates h items).bind fun _ => .pure _
  | .assign _ op target value =>
      unfold eval
      refine (eval_evaluates h value).bind fun right => ?_
      dsimp only
      split
      · exact (assign_evaluates h target [] right).bind fun _ => .pure _
      · refine (eval_evaluates h target).bind fun _ => ?_
        exact (assign_evaluates h target [] _).bind fun _ => .pure _

theorem evalAll_evaluates (h : CallsEvaluate env invoke) (es : List Expr) :
    Evaluates (evalAll env invoke es) := by
  match es with
  | [] =>
      unfold evalAll
      exact .pure _
  | e :: rest =>
      unfold evalAll
      refine (eval_evaluates h e).bind fun _ => ?_
      exact (evalAll_evaluates h rest).bind fun _ => .pure _

theorem evalProperties_evaluates (h : CallsEvaluate env invoke) (ps : List Property) :
    Evaluates (evalProperties env invoke ps) := by
  match ps with
  | [] =>
      unfold evalProperties
      exact .pure _
  | .mk key e _ :: rest =>
      unfold evalProperties
      refine (eval_evaluates h e).bind fun _ => ?_
      exact (evalProperties_evaluates h rest).bind fun _ => .pure _

theorem propertyKey_evaluates (h : CallsEvaluate env invoke) (e : Expr) :
    Evaluates (propertyKey env invoke e) := by
  have hValue := eval_evaluates h e
  rw [propertyKey.eq_def]
  split
  · exact .pure _
  · exact hValue.bind fun _ => .pure _

theorem assign_evaluates (h : CallsEvaluate env invoke) (target : Expr) (keys : List String)
    (value : Data) : Evaluates (assign env invoke target keys value) := by
  rw [assign.eq_def]
  split
  · exact store_evaluates env _ keys value
  · next object property _ _ =>
    refine (propertyKey_evaluates h property).bind fun key => ?_
    exact assign_evaluates h object (key :: keys) value
  · exact .throw (by simp [EvalError.kind])

end

end

/-- Where there is no function to call, a text fails as one exactly if it is no expression. -/
theorem evaluate_malformed_iff {env : Environment} (hNone : ∀ name, env.function? name = none)
    (source : String) :
    (∃ e, evaluate source env = .error e ∧ e.kind = .malformed) ↔
      ∀ e, Expr.parse source ≠ .ok e := by
  unfold evaluate
  cases hParse : Expr.parse source with
  | error e => exact ⟨fun _ => nofun, fun _ => ⟨.malformed e, rfl, rfl⟩⟩
  | ok e =>
      have hCalls : CallsEvaluate env (invokeWithin env maxCallDepth) := fun name f hFunction =>
        absurd hFunction (by simp [hNone])
      refine ⟨fun ⟨failure, hError, hKind⟩ => ?_, fun h => absurd rfl (h e)⟩
      exact absurd hKind (eval_evaluates hCalls e [] failure hError)

end Script

end HtmlTemplate
