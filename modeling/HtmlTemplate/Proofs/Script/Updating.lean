import Mathlib
import HtmlTemplate.Proofs.Script.Course

/-! Updates: compound assignments and steps, which give a target a new value made from its old one.
The target is read and then assigned, and its keys are evaluated for each. So the property that is
assigned is the one that has been read as long as the keys have no side effects; a key that counts a
variable up leads to one property first and to another then. -/
namespace HtmlTemplate.Script

/-- Expressions that update a target: what they make of its old value, and what they give. The right
side of a compound assignment has a value and no side effect, as a literal has. -/
inductive Updates (env : Environment) (invoke : Invoke) (locals : Locals) (target : Expr) :
    Expr → (Data → Data) → (Data → Data) → Prop where
  | compound {x : Extent} {op : AssignOp} {binary : BinaryOp} {right : Expr} {b : Data}
    (hOp : op.binary? = some binary)
    (hRight : (eval env invoke right).run locals = (.ok b, locals)) :
    Updates env invoke locals target (.assign x op target right)
      (binary.apply · b) (binary.apply · b)
  | step {x : Extent} {op : StepOp} :
    Updates env invoke locals target (.step x op target)
      (fun old => .ofFloat (op.apply old.toNumber)) (fun old => .ofFloat old.toNumber)

section

variable (env : Environment) (invoke : Invoke) (locals : Locals) (target : Expr)
  (next gives : Data → Data)

/-- An update that evaluates the keys once: the old value is found where the new one is stored. -/
def updateInPlace : Eval Data := do
  let keys ← keysOf env invoke target.path
  let old := target.found env locals keys.reverse
  storeAt env target keys (next old)
  return gives old

/-- An update that evaluates the keys twice, from the first to the last for the old value and from
the last to the first for the new one. -/
def updateInTwoPasses : Eval Data := do
  let keys ← keysOf env invoke target.path
  let old := target.found env locals keys.reverse
  let written ← keysOf env invoke target.path.reverse
  storeAt env target written.reverse (next old)
  return gives old

/-- The keys that are evaluated for an update. -/
def updateAsk : List (Locals × Work) :=
  keysAsk env invoke locals target.path ++
    behind (keysOf env invoke target.path) locals fun _ after =>
      keysAsk env invoke after target.path.reverse

end

section

variable {env : Environment} {invoke : Invoke} {locals : Locals} {target update : Expr}
  {name : String} {next gives : Data → Data}

theorem eval_update (hRoot : target.root? = some name)
    (h : Updates env invoke locals target update next gives) :
    (eval env invoke update).run locals =
      (updateInTwoPasses env invoke locals target next gives).run locals := by
  cases h with
  | compound hOp hRight =>
      unfold eval
      rw [run_bind, hRight]
      simp only [hOp, pure_bind]
      refine (run_bind_congr (eval_target hRoot) fun _ _ _ => rfl).trans ?_
      simp only [updateInTwoPasses, assign_eq, bind_assoc, pure_bind, List.append_nil]
  | step =>
      unfold eval
      refine (run_bind_congr (eval_target hRoot) fun _ _ _ => rfl).trans ?_
      simp only [updateInTwoPasses, assign_eq, bind_assoc, pure_bind, List.append_nil]

/-- Keys without side effects lead to the same place again. -/
theorem updateInTwoPasses_of_quiet (h : ∀ e ∈ target.path, Quiet env invoke locals e) :
    (updateInTwoPasses env invoke locals target next gives).run locals =
      (updateInPlace env invoke locals target next gives).run locals := by
  unfold updateInTwoPasses updateInPlace
  refine run_bind_congr rfl fun keys after hKeys => ?_
  have hSame := congrArg Prod.snd ((run_keysOf h).symm.trans hKeys)
  obtain rfl : locals = after := hSame
  dsimp only
  rw [run_bind, keysOf_reverse h hKeys]
  dsimp only
  rw [List.reverse_reverse]

end

section

variable {env : Environment} {depth : Nat} {locals : Locals} {target update : Expr} {name : String}
  {next gives : Data → Data}

open Evaluation

theorem updateAsk_sublist {value : Data → Data} (hRoot : target.root? = some name) :
    ((updateAsk env (callAt env depth) locals target).map (ofAsked depth)).Sublist
      ((((locals, .expression target) ::
        behind (eval env (callAt env depth) target) locals fun old after =>
          [(after, .assignment target [] (value old))]).map (ofAsked depth)).flatMap
            (course env)) := by
  rw [updateAsk, List.map_append, List.map_cons, List.flatMap_cons, behind_target hRoot]
  refine (path_sublist_course hRoot locals).append (behind_sublist_course fun keys after => ?_)
  simpa [ofAsked] using reverse_path_sublist_course target [] _ after

/-- All of these keys stand in the course of the update. -/
theorem updateAsk_sublist_course (hRoot : target.root? = some name)
    (h : Updates env (callAt env depth) locals target update next gives) :
    ((updateAsk env (callAt env depth) locals target).map (ofAsked depth)).Sublist
      (course env ⟨depth, locals, .expression update⟩) := by
  cases h with
  | compound hOp hRight =>
      refine sublist_course_of_asks (by rintro _ _ ⟨⟩) ?_
      simp only [Work.asks, expressionAsks, behind_of_ok hRight, hOp, List.map_cons,
        List.flatMap_cons]
      exact (updateAsk_sublist hRoot).trans (List.sublist_append_right _ _)
  | step =>
      refine sublist_course_of_asks (by rintro _ _ ⟨⟩) ?_
      exact updateAsk_sublist hRoot

/-- Where all keys can be evaluated twice, each index expression is. -/
theorem map_updateAsk {invoke : Invoke} {keys written : List String} {middle last : Locals}
    (hKeys : (keysOf env invoke target.path).run locals = (.ok keys, middle))
    (hWritten : (keysOf env invoke target.path.reverse).run middle = (.ok written, last)) :
    (updateAsk env invoke locals target).map Prod.snd =
      (indices target.path ++ (indices target.path).reverse).map .expression := by
  have hReverse : indices target.path.reverse = (indices target.path).reverse :=
    List.filter_reverse
  rw [updateAsk, behind_of_ok hKeys, List.map_append, map_keysAsk hKeys, map_keysAsk hWritten,
    hReverse, List.map_append]

end

open Evaluation in
/-- An update reads its target where the keys lead to in one evaluation, and writes it where they
lead to in another one, behind the first and in the opposite order. So each index expression is
evaluated twice where both succeed. If the keys have no side effects, then the property that is
written is still the one that has been read. -/
theorem update_in_two_passes (env : Environment) (depth : Nat) (locals : Locals)
    {target update : Expr} {name : String} {next gives : Data → Data}
    (hRoot : target.root? = some name)
    (hUpdates : Updates env (callAt env depth) locals target update next gives) :
    (eval env (callAt env depth) update).run locals =
      (updateInTwoPasses env (callAt env depth) locals target next gives).run locals ∧
    ((updateAsk env (callAt env depth) locals target).map (ofAsked depth)).Sublist
      (course env ⟨depth, locals, .expression update⟩) ∧
    (∀ keys written middle last,
      (keysOf env (callAt env depth) target.path).run locals = (.ok keys, middle) →
      (keysOf env (callAt env depth) target.path.reverse).run middle = (.ok written, last) →
      (updateAsk env (callAt env depth) locals target).map Prod.snd =
        (indices target.path ++ (indices target.path).reverse).map .expression) ∧
    ((∀ e ∈ target.path, Quiet env (callAt env depth) locals e) →
      (eval env (callAt env depth) update).run locals =
        (updateInPlace env (callAt env depth) locals target next gives).run locals) := by
  have hPasses := eval_update hRoot hUpdates
  refine ⟨hPasses, updateAsk_sublist_course hRoot hUpdates, ?_, ?_⟩
  · intro keys written middle last hKeys hWritten
    exact map_updateAsk hKeys hWritten
  · intro hQuiet
    exact hPasses.trans (updateInTwoPasses_of_quiet hQuiet)

/-- `o[key]`, where `o` is an object and `key` names one of its properties. -/
def chosenPart : Expr :=
  .member ⟨0, 6⟩ (.identifier ⟨0, 1⟩ "o") (.identifier ⟨2, 5⟩ "key") true false

/-- `o[key] += '!'` -/
def exclaim : Expr :=
  .assign ⟨0, 13⟩ .addAssign chosenPart (.string ⟨10, 13⟩ "!")

def partAndKey : Locals :=
  [⟨"o", .object [("x", .string "1")], .constant⟩, ⟨"key", .string "x", .letVariable⟩]

/-- The key has no side effect, so the property that has been read is the one that changes. -/
theorem exclaim_in_place :
    chosenPart.root? = some "o" ∧
    Updates .empty (callAt .empty 0) partAndKey chosenPart exclaim
      (BinaryOp.add.apply · (.string "!")) (BinaryOp.add.apply · (.string "!")) ∧
    (∀ e ∈ chosenPart.path, Quiet .empty (callAt .empty 0) partAndKey e) ∧
    exclaim.evalIn .empty partAndKey =
      (updateInPlace .empty (callAt .empty 0) partAndKey chosenPart
        (BinaryOp.add.apply · (.string "!")) (BinaryOp.add.apply · (.string "!"))).run partAndKey ∧
    exclaim.evalIn .empty partAndKey =
      (.ok (.string "1!"), [⟨"o", .object [("x", .string "1!")], .constant⟩,
        ⟨"key", .string "x", .letVariable⟩]) := by
  have hRoot : chosenPart.root? = some "o" := rfl
  have hUpdates : Updates .empty (callAt .empty 0) partAndKey chosenPart exclaim
      (BinaryOp.add.apply · (.string "!")) (BinaryOp.add.apply · (.string "!")) := by
    refine .compound rfl ?_
    unfold eval
    rfl
  have hQuiet : ∀ e ∈ chosenPart.path, Quiet .empty (callAt .empty 0) partAndKey e :=
    List.forall_mem_singleton.mpr (quiet_of_assigned rfl)
  have hInPlace := (update_in_two_passes .empty 0 partAndKey hRoot hUpdates).2.2.2 hQuiet
  exact ⟨hRoot, hUpdates, hQuiet, hInPlace, by cbv⟩

/-- `o[k += 'x']`, a part whose key is longer each time it is evaluated. -/
def growingPart : Expr :=
  .member ⟨0, 11⟩ (.identifier ⟨0, 1⟩ "o")
    (.assign ⟨2, 10⟩ .addAssign (.identifier ⟨2, 3⟩ "k") (.string ⟨7, 10⟩ "x")) true false

/-- `o[k += 'x'] += '!'` -/
def exclaimGrowing : Expr :=
  .assign ⟨0, 18⟩ .addAssign growingPart (.string ⟨15, 18⟩ "!")

def twoParts : Locals :=
  [⟨"o", .object [("x", .string "1"), ("xx", .string "2")], .constant⟩,
    ⟨"k", .string "", .letVariable⟩]

/-- The property `x` is read and the property `xx` is written; an update that evaluates the key once
changes `x`. -/
theorem exclaimGrowing_elsewhere :
    exclaimGrowing.evalIn .empty twoParts =
      (.ok (.string "1!"),
        [⟨"o", .object [("x", .string "1"), ("xx", .string "1!")], .constant⟩,
          ⟨"k", .string "xx", .letVariable⟩]) ∧
    (updateInPlace .empty (callAt .empty 0) twoParts growingPart
      (BinaryOp.add.apply · (.string "!")) (BinaryOp.add.apply · (.string "!"))).run twoParts =
      (.ok (.string "1!"),
        [⟨"o", .object [("x", .string "1!"), ("xx", .string "2")], .constant⟩,
          ⟨"k", .string "x", .letVariable⟩]) := by
  constructor <;> cbv

end HtmlTemplate.Script
