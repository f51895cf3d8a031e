import HtmlTemplate.Proofs.Script.Targets

/-! The course of an evaluation: all that is evaluated on its behalf, in order. The keys of a target
stand in the course of reading it from the first to the last, and in the course of assigning it from
the last to the first. -/
namespace HtmlTemplate.Script

namespace Evaluation

/-- What an evaluator some calls deep is asked for. -/
def ofAsked (depth : Nat) (asked : Locals × Work) : Evaluation :=
  ⟨depth, asked.1, asked.2⟩

/-- An evaluation and, in order, the courses of those that it asks for. -/
noncomputable def course (env : Environment) (a : Evaluation) : List Evaluation :=
  a :: (a.asks env).attach.flatMap fun b => course env b.1
termination_by a.budget
decreasing_by exact budget_of_asks b.2

section

variable {env : Environment} {depth : Nat} {locals : Locals} {work : Work}

theorem course_eq (a : Evaluation) : a.course env = a :: (a.asks env).flatMap (course env) := by
  rw [course, List.flatMap_subtype fun _ _ => rfl, List.unattach_attach]

/-- What is asked for stands in the courses of what is asked for. -/
theorem sublist_flatMap_course (asked : List Evaluation) :
    asked.Sublist (asked.flatMap (course env)) := by
  induction asked with
  | nil => exact .slnil
  | cons a rest ih =>
      rw [List.flatMap_cons, course_eq, List.cons_append]
      exact (ih.trans (List.sublist_append_right _ _)).cons_cons a

theorem sublist_course_of_asks (hOther : ∀ f args, work ≠ .call f args) {part : List Evaluation}
    (h : part.Sublist
      (((work.asks env (callAt env depth) locals).map (ofAsked depth)).flatMap (course env))) :
    part.Sublist (course env ⟨depth, locals, work⟩) := by
  rw [course_eq, asks_of_ne_call hOther]
  exact h.cons _

end

end Evaluation

section

variable (env : Environment) (invoke : Invoke)

/-- The keys that have to be evaluated when some are, one behind the other: plain names are keys
already. -/
def keysAsk (locals : Locals) : List Expr → List (Locals × Work)
  | [] => []
  | e :: rest =>
    keyAsks locals e ++ behind (propertyKey env invoke e) locals fun _ after => keysAsk after rest

end

/-- The index expressions among the expressions of keys: those that are no plain names. -/
def indices (es : List Expr) : List Expr :=
  es.filter fun
    | .string .. => false
    | _ => true

section

variable {α β : Type} {env : Environment} {invoke : Invoke} {locals after : Locals} {e : Expr}
  {es more : List Expr} {asked : List (Locals × Work)}

theorem behind_of_ok {x : Eval α} {next : α → Locals → List (Locals × Work)} {a : α}
    (h : x.run locals = (.ok a, after)) : behind x locals next = next a after := by
  unfold behind
  rw [h]

theorem behind_bind {x : Eval α} {f : α → Eval β} {next : β → Locals → List (Locals × Work)} :
    behind (x >>= f) locals next = behind x locals fun a after => behind (f a) after next := by
  unfold behind
  rw [run_bind]
  rcases x.run locals with ⟨result, after⟩
  cases result <;> rfl

theorem behind_nil {x : Eval α} : (behind x locals fun _ _ => []) = [] := by
  unfold behind
  rcases x.run locals with ⟨result, after⟩
  cases result <;> rfl

theorem keysAsk_single (e : Expr) : keysAsk env invoke locals [e] = keyAsks locals e := by
  rw [keysAsk]
  simp only [keysAsk, behind_nil, List.append_nil]

/-- What is asked for behind a target is asked for behind its keys. -/
theorem behind_target {target : Expr} {name : String} (hRoot : target.root? = some name)
    (next : Data → Locals → List (Locals × Work)) :
    behind (eval env invoke target) locals next =
      behind (keysOf env invoke target.path) locals fun keys after =>
        next (target.found env locals keys.reverse) after := by
  calc
    behind (eval env invoke target) locals next
      = behind (keysOf env invoke target.path >>= fun keys =>
          pure (target.found env locals keys.reverse)) locals next := by
        unfold behind
        rw [eval_target hRoot]
    _ = behind (keysOf env invoke target.path) locals fun keys after =>
          behind (pure (target.found env locals keys.reverse)) after next := behind_bind

theorem keysAsk_append (locals : Locals) :
    keysAsk env invoke locals (es ++ more) = keysAsk env invoke locals es ++
      behind (keysOf env invoke es) locals fun _ after => keysAsk env invoke after more := by
  induction es generalizing locals with
  | nil => rfl
  | cons e rest ih =>
      rw [List.cons_append, keysAsk, keysAsk, keysOf_cons, behind_bind, List.append_assoc]
      congr 1
      unfold behind
      rcases (propertyKey env invoke e).run locals with ⟨result, after⟩
      cases result with
      | error e => rfl
      | ok key =>
          simp only [ih after, run_bind]
          congr 1
          unfold behind
          rcases (keysOf env invoke rest).run after with ⟨result, last⟩
          cases result <;> rfl

theorem map_keyAsks (e : Expr) :
    (keyAsks locals e).map Prod.snd = (indices [e]).map Work.expression := by
  cases e <;> rfl

/-- Where all keys can be evaluated, each index expression is. -/
theorem map_keysAsk {keys : List String}
    (h : (keysOf env invoke es).run locals = (.ok keys, after)) :
    (keysAsk env invoke locals es).map Prod.snd = (indices es).map Work.expression := by
  induction es generalizing locals keys with
  | nil => rfl
  | cons e rest ih =>
      rw [keysOf_cons, run_bind] at h
      split at h
      · next key middle hKey =>
        rw [run_bind] at h
        split at h
        · next others last hOthers =>
          cases h
          have hSplit : indices (e :: rest) = indices [e] ++ indices rest :=
            List.filter_append [e] rest
          rw [keysAsk, behind_of_ok hKey, List.map_append, map_keyAsks, ih hOthers, hSplit,
            List.map_append]
        · cases h
      · cases h

end

section

variable {env : Environment} {depth : Nat}

open Evaluation

theorem behind_sublist_course {α : Type} {x : Eval α} {locals : Locals}
    {part next : α → Locals → List (Locals × Work)}
    (h : ∀ a after, ((part a after).map (ofAsked depth)).Sublist
      (((next a after).map (ofAsked depth)).flatMap (course env))) :
    ((behind x locals part).map (ofAsked depth)).Sublist
      (((behind x locals next).map (ofAsked depth)).flatMap (course env)) := by
  unfold behind
  rcases x.run locals with ⟨result, after⟩
  cases result with
  | error e => exact .slnil
  | ok a => exact h a after

/-- Reading a target evaluates its keys from the first to the last. -/
theorem path_sublist_course {target : Expr} {name : String} (hRoot : target.root? = some name)
    (locals : Locals) :
    ((keysAsk env (callAt env depth) locals target.path).map (ofAsked depth)).Sublist
      (course env ⟨depth, locals, .expression target⟩) := by
  fun_induction Expr.path target with
  | case1 x inner property computed optional ih =>
      have hInner : inner.root? = some name := hRoot
      refine sublist_course_of_asks (by rintro _ _ ⟨⟩) ?_
      cases hConstant : constantMember? env locals inner property with
      | some value =>
          obtain ⟨y, z, key, rfl, rfl⟩ := constantMember?_eq_some hConstant
          change (List.map _ (keysAsk _ _ _ [.string z key])).Sublist _
          rw [keysAsk_single]
          exact List.nil_sublist _
      | none =>
          simp only [Work.asks, expressionAsks, hConstant, Option.isSome_none, Bool.false_eq_true,
            ↓reduceIte, List.map_cons, List.flatMap_cons]
          rw [keysAsk_append, List.map_append, behind_target hInner]
          simp only [keysAsk_single]
          exact (ih hInner).append (sublist_flatMap_course _)
  | case2 target hOther => exact List.nil_sublist _

/-- Assigning it evaluates them from the last to the first. -/
theorem reverse_path_sublist_course (target : Expr) (keys : List String) (value : Data)
    (locals : Locals) :
    ((keysAsk env (callAt env depth) locals target.path.reverse).map (ofAsked depth)).Sublist
      (course env ⟨depth, locals, .assignment target keys value⟩) := by
  fun_induction Expr.path target generalizing keys locals with
  | case1 x inner property computed optional ih =>
      refine sublist_course_of_asks (by rintro _ _ ⟨⟩) ?_
      rw [List.reverse_append, List.reverse_singleton, List.singleton_append, keysAsk]
      simp only [Work.asks, List.map_append, List.flatMap_append]
      refine (sublist_flatMap_course _).append (behind_sublist_course fun key after => ?_)
      simpa [ofAsked] using ih (key :: keys) after
  | case2 target hOther => exact List.nil_sublist _

end

end HtmlTemplate.Script
