import HtmlTemplate.Proofs.Raw.Builtins
import HtmlTemplate.Proofs.Raw.Scripts
import HtmlTemplate.Script.Evaluation

/-! Evaluation where the raw data is in reach and where it is not. A script that cannot
name the raw data gives the same in both environments, and it gives plain values. -/
namespace HtmlTemplate

open Text (Plain)

/-- A function that gives plain values for plain arguments. -/
def Function.Plain : Function → Prop
  | .builtin b => b.KeepsPlain
  | .script _ _ body => Script.PlainStatements body

/-- Two environments in which all plain names and paths mean the same plain values, and
which have the same functions. -/
structure Environment.Twins (e f : Environment) : Prop where
  value_same : ∀ name, Plain name.toList → e.value? name = f.value? name
  value_plain : ∀ name v, Plain name.toList → e.value? name = some v → v.Plain
  path_same : ∀ path, Plain path.toList → e.path? path = f.path? path
  path_plain : ∀ path v, Plain path.toList → e.path? path = some v → v.Plain
  function_same : e.function? = f.function?
  function_plain : ∀ name g, e.function? name = some g → g.Plain

namespace Script

/-- All local variables hold plain values. -/
def Locals.Plain (locals : Locals) : Prop := ∀ l ∈ locals, l.value.Plain

namespace Locals

theorem Plain.declare {locals : Locals} (h : locals.Plain) (kind : Declaration) (name : String)
    {value : Data} (hValue : value.Plain) : (locals.declare kind name value).Plain := by
  induction locals with
  | nil => exact List.forall_mem_cons.mpr ⟨hValue, nofun⟩
  | cons l rest ih =>
      obtain ⟨hFirst, hRest⟩ := List.forall_mem_cons.mp h
      unfold Locals.declare
      split
      · exact List.forall_mem_cons.mpr ⟨hValue, hRest⟩
      · exact List.forall_mem_cons.mpr ⟨hFirst, ih hRest⟩

theorem Plain.update {locals : Locals} (h : locals.Plain) (name : String) {value : Data}
    (hValue : value.Plain) : (locals.update name value).Plain := by
  induction locals with
  | nil => exact h
  | cons l rest ih =>
      obtain ⟨hFirst, hRest⟩ := List.forall_mem_cons.mp h
      unfold Locals.update
      split
      · exact List.forall_mem_cons.mpr ⟨hValue, hRest⟩
      · exact List.forall_mem_cons.mpr ⟨hFirst, ih hRest⟩

theorem Plain.get {locals : Locals} (h : locals.Plain) {name : String} {l : Local}
    (hFound : locals.get? name = some l) : l.value.Plain :=
  h l (List.mem_of_find?_eq_some hFound)

end Locals

theorem plain_bindParams (params : List String) {args : List Data} (h : ∀ v ∈ args, v.Plain) :
    (bindParams params args).Plain := by
  refine List.foldlRecOn _ _ (List.forall_mem_nil _) ?_
  intro locals hLocals entry _
  exact hLocals.declare _ entry.1 (plain_argument h entry.2)

/-- A computation that goes on with another. -/
theorem run_bind {α β : Type} (x : Eval α) (f : α → Eval β) (locals : Locals) :
    (x >>= f).run locals =
      match x.run locals with
      | (.ok a, after) => (f a).run after
      | (.error e, after) => (.error e, after) := by
  show (match x.run locals with | (a, after) => (ExceptT.bindCont f a) after) = _
  rcases x.run locals with ⟨result, after⟩
  cases result <;> rfl

/-- Two computations that do the same to plain local variables: they leave plain ones, and
what they give has a property. -/
def Twin {α : Type} (P : α → Prop) (x y : Eval α) : Prop :=
  ∀ locals : Locals, locals.Plain →
    x.run locals = y.run locals ∧ (x.run locals).2.Plain ∧
    ∀ a, (x.run locals).1 = .ok a → P a

namespace Twin

variable {α β : Type} {P : α → Prop} {Q : β → Prop} {x y : Eval α}

theorem pure {a : α} (h : P a) : Twin P (Pure.pure a) (Pure.pure a) := by
  intro locals hLocals
  refine ⟨rfl, hLocals, ?_⟩
  rintro _ ⟨⟩
  exact h

theorem throw (e : EvalError) : Twin P (MonadExcept.throw e) (MonadExcept.throw e) :=
  fun _ hLocals => ⟨rfl, hLocals, nofun⟩

theorem bind {f g : α → Eval β} (h : Twin P x y) (hNext : ∀ a, P a → Twin Q (f a) (g a)) :
    Twin Q (x >>= f) (y >>= g) := by
  intro locals hLocals
  obtain ⟨hSame, hLeft, hGives⟩ := h locals hLocals
  rw [run_bind, run_bind, ← hSame]
  rcases hRun : x.run locals with ⟨result, after⟩
  rw [hRun] at hLeft hGives
  cases result with
  | error e => exact ⟨rfl, hLeft, nofun⟩
  | ok a => exact hNext a (hGives a rfl) after hLeft

theorem get : Twin Locals.Plain MonadState.get MonadState.get := by
  intro locals hLocals
  refine ⟨rfl, hLocals, ?_⟩
  rintro _ ⟨⟩
  exact hLocals

theorem set {locals : Locals} (h : locals.Plain) :
    Twin (fun _ => True) (MonadStateOf.set locals) (MonadStateOf.set locals) :=
  fun _ _ => ⟨rfl, h, fun _ _ => trivial⟩

theorem modify {f : Locals → Locals} (h : ∀ locals, locals.Plain → (f locals).Plain) :
    Twin (fun _ => True) (modify f) (modify f) :=
  fun locals hLocals => ⟨rfl, h locals hLocals, fun _ _ => trivial⟩

theorem lift {r s : Except EvalError α} (hSame : r = s) (h : ∀ a, r = .ok a → P a) :
    Twin P (liftM r) (liftM s) := by
  subst hSame
  intro locals hLocals
  cases r with
  | error e => exact ⟨rfl, hLocals, nofun⟩
  | ok a =>
      refine ⟨rfl, hLocals, ?_⟩
      rintro _ ⟨⟩
      exact h a rfl

end Twin

theorem plain_constantMember {e : Environment} {locals : Locals} {object property : Expr} {v : Data}
    (hValue : constantMember? e locals object property = some v) : v.Plain := by
  unfold constantMember? at hValue
  split at hValue
  · split at hValue
    · cases hValue
    · exact plain_mathConstant hValue
  · cases hValue

/-- Two ways of calling functions that give the same plain value for plain arguments. -/
def InvokeTwins (i j : Invoke) : Prop :=
  ∀ (g : Function) (args : List Data), g.Plain → (∀ v ∈ args, v.Plain) →
    i g args = j g args ∧ ∀ v, i g args = .ok v → v.Plain

section

variable {e f : Environment} {locals : Locals} (hEnv : e.Twins f)

include hEnv

theorem isBound_eq (locals : Locals) {name : String} (h : Plain name.toList) :
    isBound e locals name = isBound f locals name := by
  unfold isBound
  rw [hEnv.value_same name h]

theorem variableValue_eq (locals : Locals) {name : String} (h : Plain name.toList) :
    variableValue e locals name = variableValue f locals name := by
  unfold variableValue
  rw [hEnv.value_same name h]

theorem plain_variableValue (hLocals : locals.Plain) {name : String} (h : Plain name.toList) :
    (variableValue e locals name).Plain := by
  unfold variableValue
  split
  · next l hFound => exact hLocals.get hFound
  · split
    · next v hFound => exact hEnv.value_plain name v h hFound
    · split
      · exact Data.plain_string.mpr (by decide)
      · exact Data.plain_string.mpr (by decide)
      · exact Data.plain_null

theorem constantMember_eq (locals : Locals) (object property : Expr) :
    constantMember? e locals object property = constantMember? f locals object property := by
  unfold constantMember?
  rw [isBound_eq hEnv locals (by decide)]

theorem isMath_eq (locals : Locals) (object : Expr) :
    isMath e locals object = isMath f locals object := by
  unfold isMath
  rw [isBound_eq hEnv locals (by decide)]

theorem callNamed_eq {i j : Invoke} (hInvoke : InvokeTwins i j) (locals : Locals) (name : String)
    {args : List Data} (hArgs : ∀ v ∈ args, v.Plain) :
    callNamed e i locals name args = callNamed f j locals name args := by
  unfold callNamed
  rw [← hEnv.function_same]
  split
  · rfl
  · split
    · next g hFound => exact (hInvoke g args (hEnv.function_plain name g hFound) hArgs).1
    · rfl

theorem plain_callNamed {i j : Invoke} (hInvoke : InvokeTwins i j) {locals : Locals} {name : String}
    {args : List Data} (hArgs : ∀ v ∈ args, v.Plain) {v : Data}
    (hValue : callNamed e i locals name args = .ok v) : v.Plain := by
  unfold callNamed at hValue
  split at hValue
  · cases hValue
  · split at hValue
    · next g hFound =>
      exact (hInvoke g args (hEnv.function_plain name g hFound) hArgs).2 v hValue
    · split at hValue
      · next w hFound =>
        cases hValue
        exact plain_globalFunction hArgs hFound
      · cases hValue

theorem store_twin {name : String} (hName : Plain name.toList) {keys : List String}
    (hKeys : ∀ key ∈ keys, Plain key.toList) {value : Data} (hValue : value.Plain) :
    Twin (fun _ => True) (store e name keys value) (store f name keys value) := by
  unfold store
  refine Twin.get.bind fun locals hLocals => ?_
  split
  · split
    · split
      · exact .throw _
      · exact .set (hLocals.update name hValue)
    · exact .set (hLocals.declare _ name hValue)
  · have hCurrent := plain_variableValue hEnv hLocals hName
    rw [← variableValue_eq hEnv locals hName]
    generalize variableValue e locals name = current at hCurrent
    -- the value with the part put into it replaces that of the variable
    have hPut (changed : Data) (hChanged : setAt current keys value = .ok changed) :
        Twin (fun _ => True) (modify (Locals.update name changed))
          (modify (Locals.update name changed)) :=
      .modify fun l hl => hl.update name (plain_setAt hCurrent hKeys hValue hChanged)
    dsimp only
    split
    · refine (Twin.set (hLocals.declare _ name hCurrent)).bind fun _ _ => ?_
      split
      · next changed hChanged => exact hPut changed hChanged
      · exact .throw _
    · split
      · next changed hChanged => exact hPut changed hChanged
      · exact .throw _

end

section

variable {e f : Environment} {i j : Invoke} (hEnv : e.Twins f) (hInvoke : InvokeTwins i j)

-- the linter looks at one theorem of a mutual block at a time
set_option linter.unusedSectionVars false

include hEnv hInvoke

mutual

/-- A plain expression has the same plain value in both environments. -/
theorem eval_twin {t : Expr} (h : t.Plain) : Twin Data.Plain (eval e i t) (eval f j t) := by
  match t, h with
  | .number _ x, _ =>
      unfold eval
      exact .pure (Data.plain_ofFloat x)
  | .string _ text, h =>
      unfold eval
      exact .pure (Data.plain_string.mpr h)
  | .boolean _ b, _ =>
      unfold eval
      exact .pure (Data.plain_bool b)
  | .null _, _ | .undefined _, _ =>
      unfold eval
      exact .pure Data.plain_null
  | .identifier _ name, h =>
      unfold eval
      refine Twin.get.bind fun locals hLocals => ?_
      rw [← variableValue_eq hEnv locals h]
      exact .pure (plain_variableValue hEnv hLocals h)
  | .reference _ path, h =>
      unfold eval
      rw [← hEnv.path_same path h]
      exact .pure (Data.plain_getD (hEnv.path_plain path · h))
  | .binary _ op left right, h =>
      unfold eval
      refine (eval_twin h.1).bind fun a ha => ?_
      split
      · next v hShort => exact .pure (plain_shortcut ha hShort)
      · exact (eval_twin h.2).bind fun b hb => .pure (plain_binary op ha hb)
  | .unary _ op operand, h =>
      have hOperand : operand.Plain := h
      unfold eval
      exact (eval_twin hOperand).bind fun a _ => .pure (plain_unary op a)
  | .step _ op operand, h =>
      have hOperand : operand.Plain := h
      unfold eval
      refine (eval_twin hOperand).bind fun a _ => ?_
      refine (assign_twin hOperand (List.forall_mem_nil _) (Data.plain_ofFloat _)).bind ?_
      intro _ _
      exact .pure (Data.plain_ofFloat _)
  | .member _ object property _ _, h =>
      unfold eval
      refine Twin.get.bind fun locals _ => ?_
      rw [← constantMember_eq hEnv]
      split
      · next v hConstant => exact .pure (plain_constantMember hConstant)
      · refine (eval_twin h.1).bind fun target hTarget => ?_
        exact (propertyKey_twin h.2).bind fun key _ => .pure (plain_getProperty key hTarget)
  | .call _ callee arguments, h =>
      unfold eval
      refine (evalAll_twin h.2).bind fun args hArgs => ?_
      have hCallee : callee.Plain := h.1
      split
      · next name =>
        refine Twin.get.bind fun locals _ => .lift ?_ ?_
        · exact callNamed_eq hEnv hInvoke locals name hArgs
        · exact fun v => plain_callNamed hEnv hInvoke hArgs
      · next object property _ _ =>
        refine (propertyKey_twin hCallee.2).bind fun method _ => ?_
        refine Twin.get.bind fun locals _ => ?_
        rw [← isMath_eq hEnv]
        split
        · exact .lift rfl fun v => plain_callMath hArgs
        · refine (eval_twin hCallee.1).bind fun receiver hReceiver => ?_
          exact .lift rfl fun v => plain_callMethod hReceiver hArgs
      · exact .throw _
  | .conditional _ condition consequent alternate, h =>
      unfold eval
      refine (eval_twin h.1).bind fun a _ => ?_
      split
      · exact eval_twin h.2.1
      · exact eval_twin h.2.2
  | .object _ properties, h =>
      unfold eval
      have hProperties : PlainProperties properties := h
      refine (evalProperties_twin hProperties).bind fun fields hFields => .pure ?_
      exact Data.plain_object.mpr fun field hField => hFields field (Bag.mem_ofList hField)
  | .array _ elements, h =>
      have hElements : PlainExprs elements := h
      unfold eval
      exact (evalAll_twin hElements).bind fun items hItems => .pure (Data.plain_array.mpr hItems)
  | .assign _ op target value, h =>
      unfold eval
      refine (eval_twin h.2).bind fun right hRight => ?_
      have hStore (result : Data) (hResult : result.Plain) :=
        (assign_twin h.1 (List.forall_mem_nil _) hResult).bind fun _ _ =>
          Twin.pure (P := Data.Plain) hResult
      dsimp only
      split
      · exact hStore right hRight
      · next binary _ =>
        exact (eval_twin h.1).bind fun current hCurrent =>
          hStore _ (plain_binary binary hCurrent hRight)

theorem evalAll_twin {ts : List Expr} (h : PlainExprs ts) :
    Twin (fun values : List Data => ∀ v ∈ values, v.Plain) (evalAll e i ts) (evalAll f j ts) := by
  match ts, h with
  | [], _ =>
      unfold evalAll
      exact .pure (List.forall_mem_nil _)
  | t :: rest, h =>
      unfold evalAll
      refine (eval_twin h.1).bind fun v hv => ?_
      refine (evalAll_twin h.2).bind fun values hValues => .pure ?_
      exact List.forall_mem_cons.mpr ⟨hv, hValues⟩

theorem evalProperties_twin {ts : List Property} (h : PlainProperties ts) :
    Twin (fun fields : List (String × Data) =>
      ∀ field ∈ fields, Plain field.1.toList ∧ field.2.Plain)
      (evalProperties e i ts) (evalProperties f j ts) := by
  match ts, h with
  | [], _ =>
      unfold evalProperties
      exact .pure (List.forall_mem_nil _)
  | .mk key t _ :: rest, h =>
      unfold evalProperties
      refine (eval_twin h.2.1).bind fun v hv => ?_
      refine (evalProperties_twin h.2.2).bind fun fields hFields => .pure ?_
      exact List.forall_mem_cons.mpr ⟨⟨h.1, hv⟩, hFields⟩

theorem propertyKey_twin {t : Expr} (h : t.Plain) :
    Twin (fun key : String => Plain key.toList) (propertyKey e i t) (propertyKey f j t) := by
  have hValue := eval_twin h
  rw [propertyKey.eq_def, propertyKey.eq_def]
  split
  · exact .pure h
  · exact hValue.bind fun v hv => .pure (Data.plain_display hv)

theorem assign_twin {target : Expr} (h : target.Plain) {keys : List String}
    (hKeys : ∀ key ∈ keys, Plain key.toList) {value : Data} (hValue : value.Plain) :
    Twin (fun _ => True) (assign e i target keys value) (assign f j target keys value) := by
  rw [assign.eq_def, assign.eq_def]
  split
  · exact store_twin hEnv h hKeys hValue
  · refine (propertyKey_twin h.2).bind fun key hKey => ?_
    exact assign_twin h.1 (List.forall_mem_cons.mpr ⟨hKey, hKeys⟩) hValue
  · exact .throw _

end

/-- What a statement leads to holds a plain value, if it gives one back. -/
def Flow.Plain : Flow → Prop
  | .next => True
  | .giveBack value => value.Plain

mutual

/-- A plain statement does the same in both environments. -/
theorem exec_twin {s : Statement} (h : s.Plain) : Twin Flow.Plain (exec e i s) (exec f j s) := by
  match s, h with
  | .declare kind name none, _ =>
      unfold exec
      exact Twin.modify (fun l hl => hl.declare kind name Data.plain_null) |>.bind
        fun _ _ => .pure trivial
  | .declare kind name (some t), h =>
      have hValue : t.Plain := h.2 t rfl
      unfold exec
      refine (eval_twin hEnv hInvoke hValue).bind fun v hv => ?_
      exact Twin.modify (fun l hl => hl.declare kind name hv) |>.bind fun _ _ => .pure trivial
  | .giveBack none, _ =>
      unfold exec
      exact .pure Data.plain_null
  | .giveBack (some t), h =>
      have hValue : t.Plain := h t rfl
      unfold exec
      exact (eval_twin hEnv hInvoke hValue).bind fun v hv => .pure hv
  | .branch condition consequent alternate, h =>
      unfold exec
      refine (eval_twin hEnv hInvoke h.1).bind fun a _ => ?_
      split
      · exact execAll_twin h.2.1
      · exact execAll_twin h.2.2
  | .block body, h =>
      have hBody : PlainStatements body := h
      unfold exec
      exact execAll_twin hBody
  | .expression t, h =>
      have hValue : t.Plain := h
      unfold exec
      exact (eval_twin hEnv hInvoke hValue).bind fun _ _ => .pure trivial

theorem execAll_twin {body : List Statement} (h : PlainStatements body) :
    Twin Flow.Plain (execAll e i body) (execAll f j body) := by
  match body, h with
  | [], _ =>
      unfold execAll
      exact .pure trivial
  | s :: rest, h =>
      unfold execAll
      refine (exec_twin h.1).bind fun flow hFlow => ?_
      cases flow with
      | next => exact execAll_twin h.2
      | giveBack value => exact .pure hFlow

end

theorem run_twin {body : List Statement} (h : PlainStatements body) :
    Twin Data.Plain (run e i body) (run f j body) := by
  unfold run
  refine (execAll_twin hEnv hInvoke h).bind fun flow hFlow => ?_
  cases flow with
  | next => exact .pure Data.plain_null
  | giveBack value => exact .pure hFlow

theorem applyFunction_twin : InvokeTwins (applyFunction e i) (applyFunction f j) := by
  intro g args hFunction hArgs
  cases g with
  | builtin b => exact ⟨rfl, hFunction args hArgs⟩
  | script name params body =>
      have hBody : PlainStatements body := hFunction
      have hLocals := plain_bindParams params hArgs
      obtain ⟨hSame, -, hGives⟩ := run_twin hEnv hInvoke hBody _ hLocals
      exact ⟨congrArg Prod.fst hSame, hGives⟩

end

theorem invokeWithin_twin {e f : Environment} (hEnv : e.Twins f) (remaining : Nat) :
    InvokeTwins (invokeWithin e remaining) (invokeWithin f remaining) := by
  induction remaining with
  | zero => exact fun _ _ _ _ => ⟨rfl, nofun⟩
  | succ remaining ih => exact applyFunction_twin hEnv ih

/-- A plain expression given as text has the same plain value in both environments. -/
theorem evaluate_twin {e f : Environment} (hEnv : e.Twins f) {source : String}
    (h : Plain source.toList) :
    evaluate source e = evaluate source f ∧ ∀ v, evaluate source e = .ok v → v.Plain := by
  unfold evaluate
  cases hParsed : Expr.parse source with
  | error _ => exact ⟨rfl, nofun⟩
  | ok t =>
      have hTwin := eval_twin hEnv (invokeWithin_twin hEnv maxCallDepth) (plain_parse h hParsed)
      obtain ⟨hSame, -, hGives⟩ := hTwin [] (List.forall_mem_nil _)
      exact ⟨congrArg Prod.fst hSame, hGives⟩

end Script

/-- A plain function gives the same plain value in both environments. -/
theorem Function.call_twin {e f : Environment} (hEnv : e.Twins f) {g : Function} (h : g.Plain)
    {args : List Data} (hArgs : ∀ v ∈ args, v.Plain) :
    g.call args e = g.call args f ∧ ∀ v, g.call args e = .ok v → v.Plain :=
  Script.applyFunction_twin hEnv (Script.invokeWithin_twin hEnv Script.maxCallDepth) g args h hArgs

/-- A function whose body is plain text is plain. -/
theorem Function.plain_of_compile {name body : String} {params : List String} {g : Function}
    (h : Text.Plain body.toList) (hCompiled : Function.compile name params body = .ok g) :
    g.Plain := by
  unfold Function.compile at hCompiled
  split at hCompiled
  · next statements hParsed =>
    cases hCompiled
    exact Script.plain_parseAll h hParsed
  · cases hCompiled

end HtmlTemplate
