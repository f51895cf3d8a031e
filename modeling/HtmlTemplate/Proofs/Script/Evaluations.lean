import HtmlTemplate.Proofs.Raw.Evaluation
import Mathlib.Order.RelClasses
import Mathlib.Order.WellFounded

/-! The course of an evaluation: what is evaluated asks for the evaluation of its parts, and a
call for that of a function. The parts are evaluated by the same evaluator, with the local
variables as they are by then; a function is entered by an evaluator of its own, one call
deeper. -/
namespace HtmlTemplate.Script

/-- What an evaluator is busy with. A call is still that of the caller, a function has been
entered. -/
inductive Work where
  | expression (e : Expr)
  | expressions (es : List Expr)
  | properties (properties : List Property)
  | assignment (target : Expr) (keys : List String) (value : Data)
  | statement (s : Statement)
  | statements (body : List Statement)
  | call (f : Function) (args : List Data)
  | function (f : Function) (args : List Data)

/-- Something that is evaluated: how many calls deep its evaluator is, and the local variables
in the beginning. -/
structure Evaluation where
  depth : Nat
  locals : Locals
  work : Work

/-- How functions are called by an evaluator that is some number of calls deep. -/
def callAt (env : Environment) (depth : Nat) : Invoke :=
  invokeWithin env (maxCallDepth - depth)

/-- What is asked for behind a computation, if that gives a value. -/
def behind {α : Type} (x : Eval α) (locals : Locals)
    (next : α → Locals → List (Locals × Work)) : List (Locals × Work) :=
  match x.run locals with
  | (.ok a, after) => next a after
  | (.error _, _) => []

section

variable (env : Environment) (invoke : Invoke)

/-- What a key asks for: a name is one already. -/
def keyAsks (locals : Locals) : Expr → List (Locals × Work)
  | .string .. => []
  | e => [(locals, .expression e)]

/-- What an expression asks for, in order. -/
def expressionAsks (locals : Locals) : Expr → List (Locals × Work)
  | .binary _ op left right =>
    (locals, .expression left) :: behind (eval env invoke left) locals fun a after =>
      if (op.shortcut? a).isSome then [] else [(after, .expression right)]
  | .unary _ _ operand => [(locals, .expression operand)]
  | .step _ op operand =>
    (locals, .expression operand) :: behind (eval env invoke operand) locals fun a after =>
      [(after, .assignment operand [] (.ofFloat (op.apply a.toNumber)))]
  | .member _ object prop _ _ =>
    if (constantMember? env locals object prop).isSome then []
    else
      (locals, .expression object) :: behind (eval env invoke object) locals fun _ after =>
        keyAsks after prop
  | .call _ callee arguments =>
    (locals, .expressions arguments) :: behind (evalAll env invoke arguments) locals
      fun args after =>
        match callee with
        | .identifier _ name =>
          if (after.get? name).isSome then []
          else (env.function? name).toList.map fun f => (after, .call f args)
        | .member _ object prop _ _ =>
          keyAsks after prop ++ behind (propertyKey env invoke prop) after fun _ later =>
            if isMath env later object then [] else [(later, .expression object)]
        | _ => []
  | .conditional _ condition consequent alternate =>
    (locals, .expression condition) :: behind (eval env invoke condition) locals fun a after =>
      [(after, .expression (if a.truthy then consequent else alternate))]
  | .object _ properties => [(locals, .properties properties)]
  | .array _ elements => [(locals, .expressions elements)]
  | .assign _ op target value =>
    (locals, .expression value) :: behind (eval env invoke value) locals fun right after =>
      match op.binary? with
      | none => [(after, .assignment target [] right)]
      | some binary =>
        (after, .expression target) :: behind (eval env invoke target) after fun current later =>
          [(later, .assignment target [] (binary.apply current right))]
  | _ => []

/-- What a statement asks for, in order. -/
def statementAsks (locals : Locals) : Statement → List (Locals × Work)
  | .declare _ _ (some e) | .giveBack (some e) | .expression e => [(locals, .expression e)]
  | .branch condition consequent alternate =>
    (locals, .expression condition) :: behind (eval env invoke condition) locals fun a after =>
      [(after, .statements (if a.truthy then consequent else alternate))]
  | .block body => [(locals, .statements body)]
  | _ => []

/-- What work asks for, in order, of the evaluator that does it. A call asks for nothing of its
own evaluator. -/
def Work.asks (locals : Locals) : Work → List (Locals × Work)
  | expression e => expressionAsks env invoke locals e
  | expressions [] => []
  | expressions (e :: rest) =>
    (locals, .expression e) :: behind (eval env invoke e) locals fun _ after =>
      [(after, .expressions rest)]
  | properties [] => []
  | properties (.mk _ e _ :: rest) =>
    (locals, .expression e) :: behind (eval env invoke e) locals fun _ after =>
      [(after, .properties rest)]
  | assignment (.member _ object prop _ _) keys value =>
    keyAsks locals prop ++ behind (propertyKey env invoke prop) locals fun key after =>
      [(after, .assignment object (key :: keys) value)]
  | assignment _ _ _ => []
  | statement s => statementAsks env invoke locals s
  | statements [] => []
  | statements (s :: rest) =>
    (locals, .statement s) :: behind (exec env invoke s) locals fun flow after =>
      match flow with
      | .next => [(after, .statements rest)]
      | .giveBack _ => []
  | call _ _ => []
  | function (.builtin _) _ => []
  | function (.script _ params body) args => [(bindParams params args, .statements body)]

/-- Whether two ways of calling functions make no difference to work. -/
def Work.Same (other : Invoke) (locals : Locals) : Work → Prop
  | expression e => (eval env invoke e).run locals = (eval env other e).run locals
  | expressions es => (evalAll env invoke es).run locals = (evalAll env other es).run locals
  | properties ps =>
    (evalProperties env invoke ps).run locals = (evalProperties env other ps).run locals
  | assignment target keys value =>
    (assign env invoke target keys value).run locals =
      (assign env other target keys value).run locals
  | statement s => (exec env invoke s).run locals = (exec env other s).run locals
  | statements body => (execAll env invoke body).run locals = (execAll env other body).run locals
  | call f args => invoke f args = other f args
  | function f args => applyFunction env invoke f args = applyFunction env other f args

end

/-! Work is done alike if what it asks for is. -/

section

variable {α β : Type} {env : Environment} {invoke other : Invoke} {locals : Locals}

theorem run_bind_congr {x y : Eval α} {f g : α → Eval β} (h : x.run locals = y.run locals)
    (hNext : ∀ a after, x.run locals = (.ok a, after) → (f a).run after = (g a).run after) :
    (x >>= f).run locals = (y >>= g).run locals := by
  rw [run_bind, run_bind, ← h]
  rcases hRun : x.run locals with ⟨result, after⟩
  cases result with
  | error e => rfl
  | ok a => exact hNext a after hRun

theorem run_get_bind (f : Locals → Eval α) :
    ((get : Eval Locals) >>= f).run locals = (f locals).run locals :=
  rfl

/-- Two ways of calling functions make no difference to what is asked for. -/
def Answered (env : Environment) (invoke other : Invoke) (asked : List (Locals × Work)) : Prop :=
  ∀ b ∈ asked, b.2.Same env invoke other b.1

theorem answered_cons {b : Locals × Work} {rest : List (Locals × Work)} :
    Answered env invoke other (b :: rest) ↔
      b.2.Same env invoke other b.1 ∧ Answered env invoke other rest :=
  List.forall_mem_cons

theorem answered_single {b : Locals × Work} :
    Answered env invoke other [b] ↔ b.2.Same env invoke other b.1 :=
  List.forall_mem_singleton

theorem answered_append {front back : List (Locals × Work)} :
    Answered env invoke other (front ++ back) ↔
      Answered env invoke other front ∧ Answered env invoke other back :=
  List.forall_mem_append

theorem mem_behind {x : Eval α} {next : α → Locals → List (Locals × Work)} {b : Locals × Work} :
    b ∈ behind x locals next ↔ ∃ a after, x.run locals = (.ok a, after) ∧ b ∈ next a after := by
  unfold behind
  rcases x.run locals with ⟨result, after⟩
  cases result with
  | error e => exact ⟨nofun, nofun⟩
  | ok a =>
      refine ⟨fun h => ⟨a, after, rfl, h⟩, ?_⟩
      rintro ⟨_, _, ⟨⟩, h⟩
      exact h

theorem Answered.behind {x : Eval α} {next : α → Locals → List (Locals × Work)}
    (h : Answered env invoke other (behind x locals next)) {a : α} {after : Locals}
    (hRun : x.run locals = (.ok a, after)) : Answered env invoke other (next a after) :=
  fun b hb => h b (mem_behind.mpr ⟨a, after, hRun, hb⟩)

theorem propertyKey_same {e : Expr} (h : Answered env invoke other (keyAsks locals e)) :
    (propertyKey env invoke e).run locals = (propertyKey env other e).run locals := by
  cases e with
  | string =>
      unfold propertyKey
      rfl
  | _ =>
      unfold propertyKey
      exact run_bind_congr (answered_single.mp h) fun _ _ _ => rfl

theorem expression_same {e : Expr}
    (h : Answered env invoke other (expressionAsks env invoke locals e)) :
    (eval env invoke e).run locals = (eval env other e).run locals := by
  cases e with
  | number | string | boolean | null | undefined | identifier | reference =>
      unfold eval
      rfl
  | binary x op left right =>
      obtain ⟨hLeft, hRight⟩ := answered_cons.mp h
      unfold eval
      refine run_bind_congr hLeft fun a after ha => ?_
      have hRight := hRight.behind ha
      cases hShort : op.shortcut? a with
      | some value => rfl
      | none =>
          rw [hShort] at hRight
          exact run_bind_congr (answered_single.mp hRight) fun _ _ _ => rfl
  | unary x op operand =>
      unfold eval
      exact run_bind_congr (answered_single.mp h) fun _ _ _ => rfl
  | step x op operand =>
      obtain ⟨hOperand, hAssigned⟩ := answered_cons.mp h
      unfold eval
      refine run_bind_congr hOperand fun a after ha => ?_
      exact run_bind_congr (answered_single.mp (hAssigned.behind ha)) fun _ _ _ => rfl
  | member x object prop computed optional =>
      unfold eval
      rw [run_get_bind, run_get_bind]
      cases hConstant : constantMember? env locals object prop with
      | some value => rfl
      | none =>
          simp only [expressionAsks, hConstant, Option.isSome_none, Bool.false_eq_true,
            ↓reduceIte] at h
          obtain ⟨hObject, hKey⟩ := answered_cons.mp h
          refine run_bind_congr hObject fun target after ha => ?_
          exact run_bind_congr (propertyKey_same (hKey.behind ha)) fun _ _ _ => rfl
  | call x callee arguments =>
      obtain ⟨hArguments, hCalled⟩ := answered_cons.mp h
      unfold eval
      refine run_bind_congr hArguments fun args after ha => ?_
      have hCalled := hCalled.behind ha
      cases callee with
      | identifier y name =>
          have hNamed : callNamed env invoke after name args =
              callNamed env other after name args := by
            unfold callNamed
            dsimp only at hCalled
            split at hCalled
            · next hLocal => rw [if_pos hLocal, if_pos hLocal]
            · next hLocal =>
              rw [if_neg hLocal, if_neg hLocal]
              cases hFunction : env.function? name with
              | none => rfl
              | some f =>
                  rw [hFunction] at hCalled
                  exact answered_single.mp hCalled
          dsimp only
          rw [run_get_bind, run_get_bind, hNamed]
      | member y object prop computed optional =>
          obtain ⟨hKey, hObject⟩ := answered_append.mp hCalled
          refine run_bind_congr (propertyKey_same hKey) fun method later hm => ?_
          have hObject := hObject.behind hm
          rw [run_get_bind, run_get_bind]
          cases hMath : isMath env later object with
          | true => rfl
          | false =>
              rw [hMath] at hObject
              exact run_bind_congr (answered_single.mp hObject) fun _ _ _ => rfl
      | _ => rfl
  | conditional x condition consequent alternate =>
      obtain ⟨hCondition, hBranch⟩ := answered_cons.mp h
      unfold eval
      refine run_bind_congr hCondition fun a after ha => ?_
      have hBranch := answered_single.mp (hBranch.behind ha)
      cases hTruthy : a.truthy with
      | true | false =>
          rw [hTruthy] at hBranch
          exact hBranch
  | object x properties =>
      unfold eval
      exact run_bind_congr (answered_single.mp h) fun _ _ _ => rfl
  | array x elements =>
      unfold eval
      exact run_bind_congr (answered_single.mp h) fun _ _ _ => rfl
  | assign x op target value =>
      obtain ⟨hValue, hAssigned⟩ := answered_cons.mp h
      unfold eval
      refine run_bind_congr hValue fun right after ha => ?_
      have hAssigned := hAssigned.behind ha
      cases hBinary : op.binary? with
      | none =>
          rw [hBinary] at hAssigned
          simp only [pure_bind]
          exact run_bind_congr (answered_single.mp hAssigned) fun _ _ _ => rfl
      | some binary =>
          rw [hBinary] at hAssigned
          obtain ⟨hTarget, hAssigned⟩ := answered_cons.mp hAssigned
          simp only [pure_bind]
          refine run_bind_congr hTarget fun current later hc => ?_
          exact run_bind_congr (answered_single.mp (hAssigned.behind hc)) fun _ _ _ => rfl

theorem statement_same {s : Statement}
    (h : Answered env invoke other (statementAsks env invoke locals s)) :
    (exec env invoke s).run locals = (exec env other s).run locals := by
  cases s with
  | declare kind name value =>
      unfold exec
      cases value with
      | none => rfl
      | some e => exact run_bind_congr (answered_single.mp h) fun _ _ _ => rfl
  | giveBack value =>
      unfold exec
      cases value with
      | none => rfl
      | some e => exact run_bind_congr (answered_single.mp h) fun _ _ _ => rfl
  | branch condition consequent alternate =>
      obtain ⟨hCondition, hBranch⟩ := answered_cons.mp h
      unfold exec
      refine run_bind_congr hCondition fun a after ha => ?_
      have hBranch := answered_single.mp (hBranch.behind ha)
      cases hTruthy : a.truthy with
      | true | false =>
          rw [hTruthy] at hBranch
          exact hBranch
  | block body =>
      unfold exec
      exact answered_single.mp h
  | expression e =>
      unfold exec
      exact run_bind_congr (answered_single.mp h) fun _ _ _ => rfl

theorem expressions_same {es : List Expr}
    (h : Answered env invoke other ((Work.expressions es).asks env invoke locals)) :
    (evalAll env invoke es).run locals = (evalAll env other es).run locals := by
  cases es with
  | nil =>
      unfold evalAll
      rfl
  | cons e rest =>
      obtain ⟨hFirst, hRest⟩ := answered_cons.mp h
      unfold evalAll
      refine run_bind_congr hFirst fun a after ha => ?_
      exact run_bind_congr (answered_single.mp (hRest.behind ha)) fun _ _ _ => rfl

theorem properties_same {ps : List Property}
    (h : Answered env invoke other ((Work.properties ps).asks env invoke locals)) :
    (evalProperties env invoke ps).run locals = (evalProperties env other ps).run locals := by
  match ps with
  | [] =>
      unfold evalProperties
      rfl
  | .mk key e shorthand :: rest =>
      obtain ⟨hFirst, hRest⟩ := answered_cons.mp h
      unfold evalProperties
      refine run_bind_congr hFirst fun a after ha => ?_
      exact run_bind_congr (answered_single.mp (hRest.behind ha)) fun _ _ _ => rfl

theorem assignment_same {target : Expr} {keys : List String} {value : Data}
    (h : Answered env invoke other ((Work.assignment target keys value).asks env invoke locals)) :
    (assign env invoke target keys value).run locals =
      (assign env other target keys value).run locals := by
  cases target with
  | member x object prop computed optional =>
      obtain ⟨hKey, hObject⟩ := answered_append.mp h
      unfold assign
      refine run_bind_congr (propertyKey_same hKey) fun key after hk => ?_
      exact answered_single.mp (hObject.behind hk)
  | _ =>
      unfold assign
      rfl

theorem statements_same {body : List Statement}
    (h : Answered env invoke other ((Work.statements body).asks env invoke locals)) :
    (execAll env invoke body).run locals = (execAll env other body).run locals := by
  cases body with
  | nil =>
      unfold execAll
      rfl
  | cons s rest =>
      obtain ⟨hFirst, hRest⟩ := answered_cons.mp h
      unfold execAll
      refine run_bind_congr hFirst fun flow after hf => ?_
      have hRest := hRest.behind hf
      cases flow with
      | next => exact answered_single.mp hRest
      | giveBack value => rfl

theorem function_same {f : Function} {args : List Data}
    (h : Answered env invoke other ((Work.function f args).asks env invoke locals)) :
    applyFunction env invoke f args = applyFunction env other f args := by
  cases f with
  | builtin b => rfl
  | script name params body =>
      have hBody := answered_single.mp h
      unfold applyFunction run
      exact congrArg Prod.fst (run_bind_congr hBody fun _ _ _ => rfl)

/-- Work other than a call is done alike if what it asks for is. -/
theorem Work.same_of_asks {work : Work} (hOther : ∀ f args, work ≠ .call f args)
    (h : Answered env invoke other (work.asks env invoke locals)) :
    work.Same env invoke other locals := by
  cases work with
  | expression e => exact expression_same h
  | expressions es => exact expressions_same h
  | properties ps => exact properties_same h
  | assignment target keys value => exact assignment_same h
  | statement s => exact statement_same h
  | statements body => exact statements_same h
  | call f args => exact absurd rfl (hOther f args)
  | function f args => exact function_same h

end

/-! What is asked for is smaller. -/

/-- The syntactic size of what is evaluated. A call has none of its own. -/
noncomputable def Work.size : Work → Nat
  | expression e => sizeOf e
  | expressions es => sizeOf es
  | properties ps => sizeOf ps
  | assignment target _ _ => sizeOf target
  | statement s => sizeOf s
  | statements body => sizeOf body
  | call _ _ | function (.builtin _) _ => 0
  | function (.script _ _ body) _ => sizeOf body + 1

/-- Whether work is smaller than a bound and is no function that has been entered. -/
def Work.Within (bound : Nat) : Work → Prop
  | function _ _ => False
  | work => work.size < bound

section

variable {α : Type} {env : Environment} {invoke : Invoke} {locals : Locals} {bound : Nat}

/-- All that is asked for is within a bound. -/
def Smaller (bound : Nat) (asked : List (Locals × Work)) : Prop :=
  ∀ b ∈ asked, b.2.Within bound

theorem smaller_nil : Smaller bound [] :=
  List.forall_mem_nil _

theorem smaller_cons {b : Locals × Work} {rest : List (Locals × Work)} (hFirst : b.2.Within bound)
    (hRest : Smaller bound rest) : Smaller bound (b :: rest) :=
  List.forall_mem_cons.mpr ⟨hFirst, hRest⟩

theorem smaller_single {b : Locals × Work} (h : b.2.Within bound) : Smaller bound [b] :=
  smaller_cons h smaller_nil

theorem Smaller.append {front back : List (Locals × Work)} (hFront : Smaller bound front)
    (hBack : Smaller bound back) : Smaller bound (front ++ back) :=
  List.forall_mem_append.mpr ⟨hFront, hBack⟩

theorem smaller_behind {x : Eval α} {next : α → Locals → List (Locals × Work)}
    (h : ∀ a after, Smaller bound (next a after)) : Smaller bound (behind x locals next) := by
  intro b hb
  obtain ⟨a, after, -, hMem⟩ := mem_behind.mp hb
  exact h a after b hMem

theorem smaller_key {e : Expr} (h : sizeOf e < bound) : Smaller bound (keyAsks locals e) := by
  cases e with
  | string => exact smaller_nil
  | _ => exact smaller_single h

theorem expressionAsks_smaller {e : Expr} :
    Smaller (sizeOf e) (expressionAsks env invoke locals e) := by
  cases e with
  | number | string | boolean | null | undefined | identifier | reference => exact smaller_nil
  | binary x op left right =>
      simp only [Expr.binary.sizeOf_spec]
      refine smaller_cons (show sizeOf left < _ by omega) (smaller_behind fun a after => ?_)
      split
      · exact smaller_nil
      · exact smaller_single (show sizeOf right < _ by omega)
  | unary x op operand =>
      simp only [Expr.unary.sizeOf_spec]
      exact smaller_single (show sizeOf operand < _ by omega)
  | step x op operand =>
      simp only [Expr.step.sizeOf_spec]
      refine smaller_cons (show sizeOf operand < _ by omega) (smaller_behind fun a after => ?_)
      exact smaller_single (show sizeOf operand < _ by omega)
  | member x object prop computed optional =>
      simp only [Expr.member.sizeOf_spec, expressionAsks]
      split
      · exact smaller_nil
      · refine smaller_cons (show sizeOf object < _ by omega) (smaller_behind fun a after => ?_)
        exact smaller_key (by omega)
  | call x callee arguments =>
      simp only [Expr.call.sizeOf_spec]
      refine smaller_cons (show sizeOf arguments < _ by omega) (smaller_behind fun args after => ?_)
      cases callee with
      | identifier y name =>
          dsimp only
          split
          · exact smaller_nil
          · intro b hb
            obtain ⟨f, -, rfl⟩ := List.mem_map.mp hb
            show 0 < _
            omega
      | member y object prop computed optional =>
          simp only [Expr.member.sizeOf_spec]
          refine (smaller_key (by omega)).append (smaller_behind fun method later => ?_)
          split
          · exact smaller_nil
          · exact smaller_single (show sizeOf object < _ by omega)
      | _ => exact smaller_nil
  | conditional x condition consequent alternate =>
      simp only [Expr.conditional.sizeOf_spec]
      refine smaller_cons (show sizeOf condition < _ by omega) (smaller_behind fun a after => ?_)
      exact smaller_single (by simp only [Work.Within, Work.size]; split <;> omega)
  | object x properties =>
      simp only [Expr.object.sizeOf_spec]
      exact smaller_single (show sizeOf properties < _ by omega)
  | array x elements =>
      simp only [Expr.array.sizeOf_spec]
      exact smaller_single (show sizeOf elements < _ by omega)
  | assign x op target value =>
      simp only [Expr.assign.sizeOf_spec]
      refine smaller_cons (show sizeOf value < _ by omega) (smaller_behind fun right after => ?_)
      split
      · exact smaller_single (show sizeOf target < _ by omega)
      · refine smaller_cons (show sizeOf target < _ by omega) (smaller_behind fun _ later => ?_)
        exact smaller_single (show sizeOf target < _ by omega)

theorem statementAsks_smaller {s : Statement} :
    Smaller (sizeOf s) (statementAsks env invoke locals s) := by
  cases s with
  | declare kind name value =>
      cases value with
      | none => exact smaller_nil
      | some e =>
          simp only [Statement.declare.sizeOf_spec, Option.some.sizeOf_spec]
          exact smaller_single (show sizeOf e < _ by omega)
  | giveBack value =>
      cases value with
      | none => exact smaller_nil
      | some e =>
          simp only [Statement.giveBack.sizeOf_spec, Option.some.sizeOf_spec]
          exact smaller_single (show sizeOf e < _ by omega)
  | branch condition consequent alternate =>
      simp only [Statement.branch.sizeOf_spec]
      refine smaller_cons (show sizeOf condition < _ by omega) (smaller_behind fun a after => ?_)
      exact smaller_single (by simp only [Work.Within, Work.size]; split <;> omega)
  | block body =>
      simp only [Statement.block.sizeOf_spec]
      exact smaller_single (show sizeOf body < _ by omega)
  | expression e =>
      simp only [Statement.expression.sizeOf_spec]
      exact smaller_single (show sizeOf e < _ by omega)

/-- Work asks its evaluator for smaller work, and to enter no function. -/
theorem Work.asks_smaller (work : Work) : Smaller work.size (work.asks env invoke locals) := by
  match work with
  | expression e => exact expressionAsks_smaller
  | expressions [] | properties [] | statements [] => exact smaller_nil
  | expressions (e :: rest) =>
      simp only [size, List.cons.sizeOf_spec]
      refine smaller_cons (show sizeOf e < _ by omega) (smaller_behind fun a after => ?_)
      exact smaller_single (show sizeOf rest < _ by omega)
  | properties (.mk key e shorthand :: rest) =>
      simp only [size, List.cons.sizeOf_spec, Property.mk.sizeOf_spec]
      refine smaller_cons (show sizeOf e < _ by omega) (smaller_behind fun a after => ?_)
      exact smaller_single (show sizeOf rest < _ by omega)
  | assignment target keys value =>
      cases target with
      | member x object prop computed optional =>
          simp only [size, Expr.member.sizeOf_spec]
          refine (smaller_key (by omega)).append (smaller_behind fun key after => ?_)
          exact smaller_single (show sizeOf object < _ by omega)
      | _ => exact smaller_nil
  | statement s => exact statementAsks_smaller
  | statements (s :: rest) =>
      simp only [size, List.cons.sizeOf_spec]
      refine smaller_cons (show sizeOf s < _ by omega) (smaller_behind fun flow after => ?_)
      cases flow with
      | next => exact smaller_single (show sizeOf rest < _ by omega)
      | giveBack value => exact smaller_nil
  | call f args => exact smaller_nil
  | function f args =>
      cases f with
      | builtin b => exact smaller_nil
      | script name params body => exact smaller_single (Nat.lt_succ_self _)

end

end HtmlTemplate.Script
