import HtmlTemplate.Proofs.Script.Evaluations

/-! Evaluation is bounded. An evaluator that is as deep as calls may nest enters no function; what
an evaluation asks for has fewer calls left, or as many and is smaller. So a recursion that only
counts how deep it is has one solution, and that is how functions are called. Functions that do
nothing but call each other are given up. -/
namespace HtmlTemplate.Script

/-! A call enters its function unless it is too deep. -/

section

variable (env : Environment)

theorem callAt_eq {depth : Nat} (h : depth < maxCallDepth) (f : Function) (args : List Data) :
    callAt env depth f args = applyFunction env (callAt env (depth + 1)) f args := by
  have hLeft : maxCallDepth - depth = maxCallDepth - (depth + 1) + 1 := by omega
  rw [callAt, hLeft]
  rfl

theorem callAt_eq_error {depth : Nat} (h : maxCallDepth ≤ depth) (f : Function)
    (args : List Data) : callAt env depth f args = .error .callDepth := by
  rw [callAt, Nat.sub_eq_zero_of_le h]
  rfl

/-- Functions are called by a recursion that knows of no calls that are left: it asks the evaluator
how deep it is, refuses at the limit and enters the function one call deeper below. -/
def Counts (call : Nat → Invoke) : Prop :=
  ∀ depth f args, call depth f args =
    if depth < maxCallDepth then applyFunction env (call (depth + 1)) f args
    else .error .callDepth

theorem callAt_counts : Counts env (callAt env) := by
  intro depth f args
  split
  · next hDepth => exact callAt_eq env hDepth f args
  · next hDepth => exact callAt_eq_error env (Nat.le_of_not_lt hDepth) f args

variable {env}

/-- There is no other such recursion. -/
theorem Counts.eq_callAt {call : Nat → Invoke} (h : Counts env call) : call = callAt env := by
  have hLevels (levels : Nat) : ∀ depth, maxCallDepth ≤ depth + levels →
      call depth = callAt env depth := by
    induction levels with
    | zero =>
        intro depth hDepth
        funext f args
        have hRefused : ¬ depth < maxCallDepth := Nat.not_lt.mpr hDepth
        rw [h, if_neg hRefused]
        exact (callAt_eq_error env hDepth f args).symm
    | succ levels ih =>
        intro depth hDepth
        funext f args
        rw [h, callAt_counts env, ih (depth + 1) (by omega)]
  funext depth
  exact hLevels maxCallDepth depth (Nat.le_add_left _ _)

end

/-! What an evaluation asks for. -/

namespace Evaluation

section

variable (env : Environment)

/-- What an evaluation asks for, in order. A call asks that its function be entered, unless it is
too deep; all else is asked of the same evaluator. -/
def asks (a : Evaluation) : List Evaluation :=
  match a.work with
  | .call f args =>
    if a.depth < maxCallDepth then [⟨a.depth + 1, [], .function f args⟩] else []
  | work =>
    (work.asks env (callAt env a.depth) a.locals).map fun asked => ⟨a.depth, asked.1, asked.2⟩

/-- An evaluation leads to another if it asks for it, or asks for one that leads to it. -/
inductive Leads (a : Evaluation) : Evaluation → Prop where
  | refl : Leads a a
  | step {b c : Evaluation} (hLeads : Leads a b) (hAsks : c ∈ b.asks env) : Leads a c

/-- What an evaluation has left: calls, then syntax. -/
noncomputable def budget (a : Evaluation) : Nat × Nat :=
  (maxCallDepth - a.depth, a.work.size)

end

section

variable {env : Environment} {a b : Evaluation}

theorem asks_call {depth : Nat} {locals : Locals} {f : Function} {args : List Data} :
    b ∈ asks env ⟨depth, locals, .call f args⟩ ↔
      depth < maxCallDepth ∧ b = ⟨depth + 1, [], .function f args⟩ := by
  simp only [asks]
  split
  · next hDepth => simp [hDepth]
  · next hDepth => simp [hDepth]

theorem asks_of_ne_call (h : ∀ f args, a.work ≠ .call f args) :
    a.asks env =
      (a.work.asks env (callAt env a.depth) a.locals).map
        fun asked => ⟨a.depth, asked.1, asked.2⟩ := by
  unfold asks
  split
  · next f args hWork => exact absurd hWork (h f args)
  · rfl

/-- An evaluation asks that a function be entered below it, or for something smaller at its own
depth. -/
theorem asks_cases (h : b ∈ a.asks env) :
    (∃ f args, a.work = .call f args ∧ a.depth < maxCallDepth ∧
      b = ⟨a.depth + 1, [], .function f args⟩) ∨
    (b.depth = a.depth ∧ b.work.Within a.work.size) := by
  obtain ⟨depth, locals, work⟩ := a
  by_cases hCall : ∃ f args, work = .call f args
  · obtain ⟨f, args, rfl⟩ := hCall
    obtain ⟨hDepth, rfl⟩ := asks_call.mp h
    exact .inl ⟨f, args, rfl, hDepth, rfl⟩
  · rw [asks_of_ne_call fun f args hWork => hCall ⟨f, args, hWork⟩] at h
    obtain ⟨asked, hAsked, rfl⟩ := List.mem_map.mp h
    exact .inr ⟨rfl, Work.asks_smaller work asked hAsked⟩

theorem size_of_within {work : Work} {bound : Nat} (h : work.Within bound) : work.size < bound := by
  cases work with
  | function => exact h.elim
  | _ => exact h

theorem budget_of_asks (h : b ∈ a.asks env) :
    Prod.Lex (· < ·) (· < ·) b.budget a.budget := by
  rcases asks_cases h with ⟨f, args, -, hDepth, rfl⟩ | ⟨hDepth, hWithin⟩
  · exact .left _ _ (by dsimp only; omega)
  · unfold budget
    rw [hDepth]
    exact .right _ (size_of_within hWithin)

/-- No evaluation asks for others without end. -/
theorem asks_wellFounded (env : Environment) : WellFounded fun b a : Evaluation => b ∈ a.asks env :=
  Subrelation.wf budget_of_asks
    (InvImage.wf budget (wellFounded_lt.prod_lex wellFounded_lt))

/-- A function is entered by a call that is not too deep, one call deeper. -/
theorem entered_of_asks (h : b ∈ a.asks env) {f : Function} {args : List Data}
    (hEntered : b.work = .function f args) : a.depth < maxCallDepth ∧ b.depth = a.depth + 1 := by
  rcases asks_cases h with ⟨g, values, -, hDepth, rfl⟩ | ⟨-, hWithin⟩
  · exact ⟨hDepth, rfl⟩
  · rw [hEntered] at hWithin
    exact hWithin.elim

theorem depth_le_of_asks (h : b ∈ a.asks env) (hDepth : a.depth ≤ maxCallDepth) :
    b.depth ≤ maxCallDepth := by
  rcases asks_cases h with ⟨f, args, -, hBelow, rfl⟩ | ⟨hSame, -⟩
  · exact hBelow
  · rwa [hSame]

theorem Leads.depth_le (h : Leads env a b) (hDepth : a.depth ≤ maxCallDepth) :
    b.depth ≤ maxCallDepth := by
  induction h with
  | refl => exact hDepth
  | step hLeads hAsks ih => exact depth_le_of_asks hAsks ih

/-- An evaluation is settled by the calls that its evaluator makes. -/
theorem same_of_calls {call : Invoke}
    (h : ∀ locals f args, Leads env a ⟨a.depth, locals, .call f args⟩ →
      call f args = callAt env a.depth f args) :
    a.work.Same env (callAt env a.depth) call a.locals := by
  have hLed (b : Evaluation) (hLeads : Leads env a b) (hDepth : b.depth = a.depth) :
      b.work.Same env (callAt env a.depth) call b.locals := by
    induction b using (asks_wellFounded env).induction with
    | h b ih =>
        obtain ⟨depth, locals, work⟩ := b
        obtain rfl : depth = a.depth := hDepth
        by_cases hCall : ∃ f args, work = .call f args
        · obtain ⟨f, args, rfl⟩ := hCall
          exact (h locals f args hLeads).symm
        · have hOther : ∀ f args, work ≠ .call f args := fun f args hWork =>
            hCall ⟨f, args, hWork⟩
          refine Work.same_of_asks hOther fun asked hAsked => ?_
          have hMem : (⟨a.depth, asked.1, asked.2⟩ : Evaluation) ∈
              asks env ⟨a.depth, locals, work⟩ := by
            rw [asks_of_ne_call hOther]
            exact List.mem_map_of_mem hAsked
          exact ih _ hMem (hLeads.step hMem) rfl
  exact hLed a .refl rfl

end

end Evaluation

/-! Functions that only call each other. -/

/-- A literal: no variable, reference or function plays a part in its value. -/
inductive Expr.IsLiteral : Expr → Prop where
  | number {x : Extent} {value : Float} : IsLiteral (.number x value)
  | string {x : Extent} {text : String} : IsLiteral (.string x text)
  | boolean {x : Extent} {b : Bool} : IsLiteral (.boolean x b)
  | null {x : Extent} : IsLiteral (.null x)
  | undefined {x : Extent} : IsLiteral (.undefined x)
  | unary {x : Extent} {op : UnaryOp} {operand : Expr} (hOperand : IsLiteral operand) :
    IsLiteral (.unary x op operand)
  | array {x : Extent} {items : List Expr} (hItems : ∀ e ∈ items, IsLiteral e) :
    IsLiteral (.array x items)
  | object {x : Extent} {properties : List Property}
    (hProperties : ∀ key e shorthand, .mk key e shorthand ∈ properties → IsLiteral e) :
    IsLiteral (.object x properties)

section

variable {env : Environment} {invoke : Invoke} {locals : Locals}

/-- A computation gives a value and leaves the local variables as they are. -/
def Gives {α : Type} (x : Eval α) (locals : Locals) : Prop :=
  ∃ a, x.run locals = (.ok a, locals)

theorem Gives.bind {α β : Type} {x : Eval α} {f : α → Eval β} (h : Gives x locals)
    (hNext : ∀ a, Gives (f a) locals) : Gives (x >>= f) locals := by
  obtain ⟨a, ha⟩ := h
  obtain ⟨b, hb⟩ := hNext a
  exact ⟨b, by rw [run_bind, ha]; exact hb⟩

theorem gives_pure {α : Type} (a : α) : Gives (pure a : Eval α) locals :=
  ⟨a, rfl⟩

theorem gives_evalAll {es : List Expr} (h : ∀ e ∈ es, Gives (eval env invoke e) locals) :
    Gives (evalAll env invoke es) locals := by
  induction es with
  | nil =>
      unfold evalAll
      exact gives_pure _
  | cons e rest ih =>
      obtain ⟨hFirst, hRest⟩ := List.forall_mem_cons.mp h
      unfold evalAll
      exact hFirst.bind fun _ => (ih hRest).bind fun _ => gives_pure _

theorem gives_evalProperties {properties : List Property}
    (h : ∀ key e shorthand, .mk key e shorthand ∈ properties →
      Gives (eval env invoke e) locals) :
    Gives (evalProperties env invoke properties) locals := by
  induction properties with
  | nil =>
      unfold evalProperties
      exact gives_pure _
  | cons property rest ih =>
      obtain ⟨key, e, shorthand⟩ := property
      have hFirst := h key e shorthand List.mem_cons_self
      have hRest := ih fun key e shorthand hMem =>
        h key e shorthand (List.mem_cons_of_mem _ hMem)
      unfold evalProperties
      exact hFirst.bind fun _ => hRest.bind fun _ => gives_pure _

theorem Expr.IsLiteral.gives {e : Expr} (h : e.IsLiteral) : Gives (eval env invoke e) locals := by
  induction h with
  | number | string | boolean | null | undefined =>
      unfold eval
      exact gives_pure _
  | unary hOperand ih =>
      unfold eval
      exact ih.bind fun _ => gives_pure _
  | array hItems ih =>
      unfold eval
      exact (gives_evalAll ih).bind fun _ => gives_pure _
  | object hProperties ih =>
      unfold eval
      exact (gives_evalProperties ih).bind fun _ => gives_pure _

theorem Locals.get?_declare {kind : Declaration} {name other : String} (value : Data)
    (h : other ≠ name) : (locals.declare kind name value).get? other = locals.get? other := by
  have hNot : (name == other) = false := beq_eq_false_iff_ne.mpr h.symm
  induction locals with
  | nil => simp [Locals.declare, Locals.get?, hNot]
  | cons l rest ih =>
      simp only [Locals.declare]
      split
      · next hSame =>
        subst hSame
        simp [Locals.get?, hNot]
      · simp only [Locals.get?, List.find?_cons] at ih ⊢
        rw [ih]

/-- A name that is no parameter is not a local variable of a function that is entered. -/
theorem get?_bindParams {params : List String} {args : List Data} {name : String}
    (h : name ∉ params) : (bindParams params args).get? name = none := by
  refine List.foldlRecOn (motive := fun locals => Locals.get? locals name = none) _ _ rfl ?_
  intro locals hLocals entry hEntry
  have hParam : entry.1 ∈ params := List.fst_mem_of_mem_zipIdx hEntry
  have hOther : name ≠ entry.1 := fun hSame => h (hSame ▸ hParam)
  exact (Locals.get?_declare _ hOther).trans hLocals

end

section

variable {env : Environment} {invoke : Invoke} {locals : Locals}

/-- A call whose callee is the name of a function, and no local variable, is handed on. -/
theorem eval_call_of_function {x : Extent} (y : Extent) {name : String} {arguments : List Expr}
    {args : List Data} {f : Function}
    (hArgs : (evalAll env invoke arguments).run locals = (.ok args, locals))
    (hLocal : locals.get? name = none) (hFunction : env.function? name = some f) :
    (eval env invoke (.call x (.identifier y name) arguments)).run locals =
      (invoke f args, locals) := by
  unfold eval
  rw [run_bind, hArgs]
  dsimp only
  rw [run_get_bind]
  simp only [callNamed, hLocal, hFunction, Option.isSome_none, Bool.false_eq_true, ↓reduceIte]
  cases invoke f args <;> rfl

theorem run_giveBack (e : Expr) :
    ((run env invoke [.giveBack (some e)]).run locals).1 =
      ((eval env invoke e).run locals).1 := by
  unfold run execAll exec
  simp only [bind_assoc, pure_bind]
  rw [run_bind]
  rcases (eval env invoke e).run locals with ⟨result, after⟩
  cases result <;> rfl

end

/-- The functions of some names only call each other: each gives back the call of one of these
names with literal arguments, and none of its parameters has such a name. -/
def Forwards (env : Environment) (names : String → Prop) : Prop :=
  ∀ name, names name → ∃ label params x y next args,
    env.function? name =
      some (.script label params [.giveBack (some (.call x (.identifier y next) args))]) ∧
    names next ∧ (∀ e ∈ args, e.IsLiteral) ∧ ∀ param ∈ params, ¬ names param

section

variable {env : Environment} {names : String → Prop}

/-- One call of a function that forwards is the next. -/
theorem Forwards.applyFunction_eq (h : Forwards env names) (invoke : Invoke) {name : String}
    (hName : names name) {f : Function} (hFunction : env.function? name = some f)
    (args : List Data) : ∃ next g values, names next ∧ env.function? next = some g ∧
      applyFunction env invoke f args = invoke g values := by
  obtain ⟨label, params, x, y, next, written, hBound, hNext, hLiteral, hParams⟩ := h name hName
  obtain ⟨nextLabel, nextParams, u, v, after, nextWritten, hNextBound, -⟩ := h next hNext
  cases hFunction.symm.trans hBound
  obtain ⟨values, hValues⟩ : Gives (evalAll env invoke written) (bindParams params args) :=
    gives_evalAll fun e he => (hLiteral e he).gives
  have hLocal : (bindParams params args).get? next = none :=
    get?_bindParams fun hMem => hParams next hMem hNext
  refine ⟨next, _, values, hNext, hNextBound, ?_⟩
  exact (run_giveBack _).trans
    (congrArg Prod.fst (eval_call_of_function y hValues hLocal hNextBound))

theorem Forwards.invokeWithin_eq_error (h : Forwards env names) (remaining : Nat) :
    ∀ name f args, names name → env.function? name = some f →
      invokeWithin env remaining f args = .error .callDepth := by
  induction remaining with
  | zero => exact fun _ _ _ _ _ => rfl
  | succ remaining ih =>
      intro name f args hName hFunction
      obtain ⟨next, g, values, hNext, hNextBound, hCall⟩ :=
        h.applyFunction_eq (invokeWithin env remaining) hName hFunction args
      exact hCall.trans (ih next g values hNext hNextBound)

end

/-- Evaluation is bounded. What an evaluation asks for has fewer calls left, or as many and less
syntax, so that there is an end to it. A function is entered from less than 64 calls deep, one call
deeper, and so no evaluator is ever deeper than that. No function is called elsewhere: an evaluator
that calls functions as they are called where the evaluation leads to, evaluates all as it is
evaluated; and the recursion that only counts how deep it is calls them as they are called.
Functions that only call each other are given up, from however deep they are called. (Built-in
global functions and methods call nothing.) -/
theorem Evaluation.bounded (env : Environment) :
    WellFounded (fun b a : Evaluation => b ∈ a.asks env) ∧
    (∀ a b : Evaluation, b ∈ a.asks env →
      Prod.Lex (· < ·) (· < ·) b.budget a.budget ∧
      ∀ f args, b.work = .function f args → a.depth < 64 ∧ b.depth = a.depth + 1) ∧
    (∀ a b, Leads env a b → a.depth ≤ 64 → b.depth ≤ 64) ∧
    (∀ a call,
      (∀ locals f args, Leads env a ⟨a.depth, locals, .call f args⟩ →
        call f args = callAt env a.depth f args) →
      a.work.Same env (callAt env a.depth) call a.locals) ∧
    (∀ call, Counts env call ↔ call = callAt env) ∧
    ∀ names, Forwards env names → ∀ name f args, names name → env.function? name = some f →
      f.call args env = .error .callDepth ∧
      ∀ depth, callAt env depth f args = .error .callDepth := by
  refine ⟨asks_wellFounded env, ?_, ?_, ?_, ?_, ?_⟩
  · exact fun a b hAsks => ⟨budget_of_asks hAsks, fun f args => entered_of_asks hAsks⟩
  · exact fun a b hLeads => hLeads.depth_le
  · exact fun a call => same_of_calls
  · refine fun call => ⟨Counts.eq_callAt, ?_⟩
    rintro rfl
    exact callAt_counts env
  · intro names hForwards name f args hName hFunction
    have hError (remaining : Nat) : invokeWithin env remaining f args = .error .callDepth :=
      hForwards.invokeWithin_eq_error remaining name f args hName hFunction
    exact ⟨hError (maxCallDepth + 1), fun depth => hError _⟩

/-- A function that gives back what another gives for a number. -/
def passing (next : String) : Function :=
  .script "pass" ["n"]
    [.giveBack (some (.call ⟨7, 14⟩ (.identifier ⟨7, 11⟩ next) [.number ⟨12, 13⟩ 1.0]))]

/-- Two functions that call each other. -/
def pingPong : Environment :=
  { Environment.empty with
    function? := fun name =>
      if name = "ping" then some (passing "pong")
      else if name = "pong" then some (passing "ping")
      else none }

/-- The last call is that of an evaluator one call above the limit, and it fails: what it enters may
not call. -/
theorem pingPong_bounded :
    Forwards pingPong (· ∈ ["ping", "pong"]) ∧
    (⟨64, [], .function (passing "pong") []⟩ : Evaluation) ∈
      Evaluation.asks pingPong ⟨63, [], .call (passing "pong") []⟩ ∧
    (63 < 64 ∧ 64 = 63 + 1) ∧
    (passing "pong").call [] pingPong = .error .callDepth := by
  have hForwards : Forwards pingPong (· ∈ ["ping", "pong"]) := by
    have hPassing (next : String) (hNext : next ∈ ["ping", "pong"]) {name : String}
        (hFunction : pingPong.function? name = some (passing next)) :
        ∃ label params x y next args, pingPong.function? name =
          some (.script label params [.giveBack (some (.call x (.identifier y next) args))]) ∧
        next ∈ ["ping", "pong"] ∧ (∀ e ∈ args, e.IsLiteral) ∧
        ∀ param ∈ params, param ∉ ["ping", "pong"] :=
      ⟨_, _, _, _, next, _, hFunction, hNext, List.forall_mem_singleton.mpr .number, by decide⟩
    intro name hName
    rcases List.mem_cons.mp hName with rfl | hName
    · exact hPassing "pong" (by decide) rfl
    cases List.mem_singleton.mp hName
    exact hPassing "ping" (by decide) rfl
  have hAsks : (⟨64, [], .function (passing "pong") []⟩ : Evaluation) ∈
      Evaluation.asks pingPong ⟨63, [], .call (passing "pong") []⟩ :=
    Evaluation.asks_call.mpr ⟨by decide, rfl⟩
  obtain ⟨-, hStep, -, -, -, hGivenUp⟩ := Evaluation.bounded pingPong
  exact ⟨hForwards, hAsks, (hStep _ _ hAsks).2 _ _ rfl,
    (hGivenUp _ hForwards "ping" _ [] (by decide) rfl).1⟩

end HtmlTemplate.Script
