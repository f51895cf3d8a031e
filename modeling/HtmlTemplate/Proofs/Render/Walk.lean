import HtmlTemplate.Render.Work

/-! The walk over markup, one token at a time. A step never touches the context, and
what it leaves open or unread does not depend on the context either, so that two
renderings of the same tokens can be compared by replacing the context of one. -/
namespace HtmlTemplate.Rendering

/-- The same place in the same tokens, rendered with something else. -/
def withContext (r : Rendering) (context : Context) : Rendering :=
  { r with context }

/-- The same rendering with other tokens left. -/
def moveTo (r : Rendering) (rest : List Token) : Rendering :=
  { r with rest }

@[simp] theorem moveTo_rest (r : Rendering) (rest : List Token) :
    (r.moveTo rest).rest = rest := rfl

@[simp] theorem moveTo_context (r : Rendering) (rest : List Token) :
    (r.moveTo rest).context = r.context := rfl

@[simp] theorem withContext_moveTo (r : Rendering) (rest : List Token) (context : Context) :
    (r.withContext context).moveTo rest = (r.moveTo rest).withContext context := rfl

@[simp] theorem withContext_rest (r : Rendering) (context : Context) :
    (r.withContext context).rest = r.rest := rfl

@[simp] theorem withContext_context (r : Rendering) (context : Context) :
    (r.withContext context).context = context := rfl

@[simp] theorem withContext_enter (r : Rendering) (context : Context) :
    (r.withContext context).enter = r.enter.withContext context := rfl

theorem start_withContext (tokens : List Token) (c d : Context) (h : c.file = d.file) :
    (start tokens c).withContext d = start tokens d := by
  simp [start, withContext, h]

theorem closeParen_context (r : Rendering) (serve : Bool) (token : Token) :
    (r.closeParen serve token).2.context = r.context := by
  unfold closeParen
  split
  · split <;> rfl
  · split <;> rfl
  · rfl

theorem closeParen_withContext (r : Rendering) (serve : Bool) (token : Token) (c : Context) :
    (r.withContext c).closeParen serve token =
      ((r.closeParen serve token).1, (r.closeParen serve token).2.withContext c) := by
  unfold closeParen
  simp only [withContext]
  split
  · split <;> rfl
  · split <;> rfl
  · rfl

theorem closeElement_context (r : Rendering) (token : Token) :
    (r.closeElement token).2.context = r.context := by
  unfold closeElement
  split
  · rfl
  · dsimp only
    split
    · rfl
    · split <;> rfl

theorem closeElement_withContext (r : Rendering) (token : Token) (c : Context) :
    (r.withContext c).closeElement token =
      ((r.closeElement token).1, (r.closeElement token).2.withContext c) := by
  unfold closeElement
  simp only [withContext]
  split
  · rfl
  · split
    · rfl
    · split <;> rfl

theorem openElement_context (r : Rendering) (session : Session) (token : Token) :
    (r.openElement session token).2.context = r.context := by
  unfold openElement
  split
  · rfl
  · dsimp only
    split
    · split <;> rfl
    · split
      · split <;> rfl
      · split <;> rfl

theorem readAction_context (r : Rendering) (m : Reading Action) :
    (r.readAction m).2.context = r.context := by
  unfold readAction read
  dsimp only
  split <;> next found => rw [← (Prod.mk.inj found).2]

theorem step_context (r : Rendering) (session : Session) (serve : Bool) (token : Token) :
    (r.step session serve token).2.context = r.context := by
  unfold step
  split
  · rfl
  · exact r.closeParen_context serve token
  · exact r.openElement_context session token
  · exact r.closeElement_context token
  · rfl
  · split <;> rfl
  · exact r.readAction_context _
  · exact r.readAction_context _
  · rfl

theorem finish_context (r : Rendering) (serve : Bool) :
    (r.finish serve).2.context = r.context := by
  unfold finish
  split
  · rfl
  · split <;> rfl

theorem finish_withContext (r : Rendering) (serve : Bool) (c : Context) :
    (r.withContext c).finish serve =
      ((r.finish serve).1, (r.finish serve).2.withContext c) := by
  unfold finish
  simp only [withContext]
  split
  · rfl
  · split <;> rfl

/-- The walk at the end of the tokens. -/
theorem walk_nil (nested : Nested) (serve : Bool) {r : Rendering} (session : Session)
    (h : r.rest = []) :
    walk nested serve r session =
      ((r.finish serve).1.map fun _ => [], (r.finish serve).2, session) := by
  rw [walk.eq_def]
  split
  · rfl
  · next found => rw [h] at found; cases found

/-- The walk at a token that has no place in markup. -/
theorem walk_misplaced (nested : Nested) (serve : Bool) {r : Rendering} (session : Session)
    {token : Token} {rest : List Token} {expectation : Expectation}
    (h : r.rest = token :: rest) (misplaced : token.kind.misplaced? = some expectation) :
    walk nested serve r session = (.error (.atToken expectation token), r, session) := by
  rw [walk.eq_def]
  split
  · next found => rw [h] at found; cases found
  · next found =>
    rw [h] at found
    cases found
    rw [misplaced]

section

variable {nested : Nested} {serve : Bool} {r after : Rendering} {session final : Session}
  {token : Token} {rest : List Token} {action : Action}
  (hRest : r.rest = token :: rest) (placed : token.kind.misplaced? = none)
  (hStep : (r.moveTo rest).step session serve token = (action, after))

section

include hRest placed hStep

/-- The walk at a token whose action fails. -/
theorem walk_of_error {e : RenderError}
    (hDone : action.perform nested r.context session = (.error e, final)) :
    walk nested serve r session = (.error e, after, final) := by
  rw [walk.eq_def]
  split
  · next found => rw [hRest] at found; cases found
  · next found =>
    rw [hRest] at found
    cases found
    simp only [moveTo] at hStep
    rw [placed]
    simp only [hStep, hDone]

/-- The walk at a token that ends the body. -/
theorem walk_of_close {text : List Char}
    (hDone : action.perform nested r.context session = (.ok text, final))
    (hClose : action.isClose = true) :
    walk nested serve r session = (.ok text, after, final) := by
  rw [walk.eq_def]
  split
  · next found => rw [hRest] at found; cases found
  · next found =>
    rw [hRest] at found
    cases found
    simp only [moveTo] at hStep
    rw [placed]
    simp only [hStep, hDone, hClose, ↓reduceIte]

/-- The walk at a token that contributes a text and is followed by others. -/
theorem walk_of_ok {text : List Char}
    (hDone : action.perform nested r.context session = (.ok text, final))
    (hOpen : action.isClose = false) :
    walk nested serve r session =
      ((walk nested serve after final).1.map (text ++ ·), (walk nested serve after final).2) := by
  rw [walk.eq_def]
  split
  · next found => rw [hRest] at found; cases found
  · next found =>
    rw [hRest] at found
    cases found
    simp only [moveTo] at hStep
    rw [placed]
    simp only [hStep, hDone, hOpen, Bool.false_eq_true, ↓reduceIte]

end

include hStep

theorem step_keeps_context : after.context = r.context := by
  have hContext := step_context (r.moveTo rest) session serve token
  rw [hStep] at hContext
  exact hContext

/-- The tokens behind a step are an end of those behind its token. -/
theorem step_suffix : after.rest <:+ rest := by
  have hSuffix := step_rest_suffix (r.moveTo rest) session serve token
  rw [hStep] at hSuffix
  exact hSuffix

include hRest

theorem step_length_lt : after.rest.length < r.rest.length := by
  have hLe := (step_suffix hStep).length_le
  rw [hRest, List.length_cons]
  omega

end

/-- A walk never touches the context. -/
theorem walk_context (nested : Nested) (serve : Bool) (r : Rendering) (session : Session) :
    (walk nested serve r session).2.1.context = r.context := by
  fun_induction walk nested serve r session with
  | case1 r => exact finish_context r serve
  | case2 => rfl
  | case3 r session token rest => exact step_context { r with rest } session serve token
  | case4 r session token rest => exact step_context { r with rest } session serve token
  | case5 r session token rest found _ stepped _ _ _ _ _ ih =>
      exact ih.trans (step_context { r with rest } session serve token)

/-- Induction along a walk: a step leaves fewer tokens than it found. -/
theorem walk_induction {motive : Rendering → Prop} (nil : ∀ r, r.rest = [] → motive r)
    (misplaced : ∀ r token rest expectation, r.rest = token :: rest →
      token.kind.misplaced? = some expectation → motive r)
    (placed : ∀ r token rest, r.rest = token :: rest → token.kind.misplaced? = none →
      (∀ after : Rendering, after.rest.length < r.rest.length → motive after) → motive r)
    (r : Rendering) : motive r := by
  induction hLength : r.rest.length using Nat.strongRecOn generalizing r with
  | ind length ih =>
      cases hRest : r.rest with
      | nil => exact nil r hRest
      | cons token rest =>
          cases hKind : token.kind.misplaced? with
          | some expectation => exact misplaced r token rest expectation hRest hKind
          | none =>
              apply placed r token rest hRest hKind
              intro after hLess
              exact ih _ (hLength ▸ hLess) after rfl

end HtmlTemplate.Rendering
