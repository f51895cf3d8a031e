import HtmlTemplate.Proofs.Render.Activities
import Mathlib.Order.RelClasses

/-! Rendering ends for every resolver. What an activity asks for has fewer levels left, or as many
levels and fewer tokens and items. So a recursion that knows of no levels left, but asks the
session how deep it is, has one solution, and that is how work is rendered. -/
namespace HtmlTemplate

namespace Activity

variable {resolve : Resolver}

/-- No activity asks for others without end. -/
theorem asks_wellFounded (resolve : Resolver) :
    WellFounded fun b a : Activity => b ∈ a.asks resolve :=
  Subrelation.wf (fun h => (asked_of_mem_asks h).less)
    (InvImage.wf budget (wellFounded_lt.prod_lex wellFounded_lt))

/-- What an activity asks for is done by `nested` as it is done by rendering. -/
def Answered (resolve : Resolver) (nested : Nested) (asked : List Activity) : Prop :=
  ∀ b ∈ asked, b.outcomeBy nested resolve = b.outcome resolve

variable {nested : Nested}

theorem work_outcomeBy_eq {context : Context} {task : Task} {token : Token} {session : Session} :
    (work context task token session).outcomeBy nested resolve =
        (work context task token session).outcome resolve ↔
      nested context task token session = session.nested resolve context task token session :=
  Outcome.ofWork_inj

theorem walk_eq_of_outcome {serve : Bool} {r : Rendering} {session : Session} {levels : Nested}
    (h : (walk serve r session).outcomeBy nested resolve =
      (walk serve r session).outcome resolve) (hLevels : session.nested resolve = levels) :
    Rendering.walk nested serve r session = Rendering.walk levels serve r session := by
  subst hLevels
  exact Outcome.ofReading_inj.mp h

theorem statements_eq_of_outcome {html : List Char} {r : Rendering} {session : Session}
    {levels : Nested} (h : (statements html r session).outcomeBy nested resolve =
      (statements html r session).outcome resolve) (hLevels : session.nested resolve = levels) :
    Rendering.statements nested resolve html r session =
      Rendering.statements levels resolve html r session := by
  subst hLevels
  exact Outcome.ofReading_inj.mp h

theorem renderItems_eq_of_outcome {tokens : List Token} {context : Context} {binding : String}
    {index : Nat} {items : List Data} {session : Session} {levels : Nested}
    (h : (turns tokens context binding index items session).outcomeBy nested resolve =
      (turns tokens context binding index items session).outcome resolve)
    (hLevels : session.nested resolve = levels) :
    renderItems nested tokens context binding index items session =
      renderItems levels tokens context binding index items session := by
  subst hLevels
  exact Outcome.ofWork_inj.mp h

theorem renderBody_eq_of_outcome {tokens : List Token} {context : Context} {session : Session}
    {levels : Nested} (h : (markup tokens context session).outcomeBy nested resolve =
      (markup tokens context session).outcome resolve)
    (hLevels : session.nested resolve = levels) :
    renderBody nested tokens context session = renderBody levels tokens context session := by
  have hWalk := walk_eq_of_outcome h hLevels
  unfold renderBody Rendering.body
  rw [hWalk]

theorem perform_eq_of_asks (context : Context) {session : Session} (action : Action)
    (h : Answered resolve nested (action.asks resolve context session)) :
    action.perform nested context session =
      action.perform (session.nested resolve) context session := by
  cases action with
  | emit | close | fail => rfl
  | run task token => exact work_outcomeBy_eq.mp (h _ List.mem_cons_self)
  | wrap k attributes content token =>
      have hContent := work_outcomeBy_eq.mp (h _ List.mem_cons_self)
      have hGauge := session.level_nested resolve context (.content content) token session
      rcases hFound : session.nested resolve context (.content content) token session with
        ⟨result, middle⟩
      rw [hFound] at hGauge
      simp only [Action.perform, hContent, hFound]
      simp only [Action.asks, hFound] at h
      cases result with
      | error e => rfl
      | ok slot =>
          have hWrapped := work_outcomeBy_eq.mp (h _ (List.mem_cons_of_mem _ List.mem_cons_self))
          rwa [Session.nested_congr resolve hGauge] at hWrapped

theorem walk_eq_of_asks {serve : Bool} {r : Rendering} {session : Session}
    (h : Answered resolve nested ((walk serve r session).asks resolve)) :
    Rendering.walk nested serve r session =
      Rendering.walk (session.nested resolve) serve r session := by
  change Answered resolve nested (walkAsks resolve serve r session r.rest) at h
  cases hRest : r.rest with
  | nil => rw [Rendering.walk_nil _ _ _ hRest, Rendering.walk_nil _ _ _ hRest]
  | cons token rest =>
      cases hKind : token.kind.misplaced? with
      | some expectation =>
          rw [Rendering.walk_misplaced _ _ _ hRest hKind,
            Rendering.walk_misplaced _ _ _ hRest hKind]
      | none =>
          rcases hStep : (r.moveTo rest).step session serve token with ⟨action, after⟩
          have hGauge := gauge_perform (session.level_nested resolve) r.context session action
          rcases hDone : action.perform (session.nested resolve) r.context session with
            ⟨result, final⟩
          rw [hDone] at hGauge
          simp only [hRest, walkAsks, hKind, hStep, hDone] at h
          have hPerformed := perform_eq_of_asks r.context action
            fun b hb => h b (List.mem_append_left _ hb)
          rw [hDone] at hPerformed
          cases result with
          | error e =>
              rw [Rendering.walk_of_error hRest hKind hStep hPerformed,
                Rendering.walk_of_error hRest hKind hStep hDone]
          | ok text =>
              cases hClose : action.isClose with
              | true =>
                  rw [Rendering.walk_of_close hRest hKind hStep hPerformed hClose,
                    Rendering.walk_of_close hRest hKind hStep hDone hClose]
              | false =>
                  have hBehind := h (walk serve after final)
                    (List.mem_append_right _ (by simp [hClose]))
                  rw [Rendering.walk_of_ok hRest hKind hStep hPerformed hClose,
                    Rendering.walk_of_ok hRest hKind hStep hDone hClose,
                    walk_eq_of_outcome hBehind (Session.nested_congr resolve hGauge)]

theorem serve_eq_of_walk {r : Rendering} {session : Session} {levels : Nested}
    (h : ∀ opened, r.openServe = (.ok (), opened) →
      Rendering.walk nested true opened.enter session =
        Rendering.walk levels true opened.enter session) :
    Rendering.serve nested r session = Rendering.serve levels r session := by
  unfold Rendering.serve
  dsimp only
  rcases hOpened : r.openServe with ⟨result, opened⟩
  cases result with
  | error e => rfl
  | ok _ => exact h opened hOpened

theorem statements_eq_of_asks {html : List Char} {r : Rendering} {session : Session}
    (h : Answered resolve nested ((statements html r session).asks resolve)) :
    Rendering.statements nested resolve html r session =
      Rendering.statements (session.nested resolve) resolve html r session := by
  change Answered resolve nested (statementAsks resolve html r session r.rest) at h
  cases hRest : r.rest with
  | nil => rw [Rendering.statements_nil hRest, Rendering.statements_nil hRest]
  | cons token rest =>
      rw [hRest] at h
      rcases Rendering.statement_cases r.endLocation token.kind with
        hBlank | hServe | ⟨keyword, reader, hKind, hReader⟩ | ⟨hBlank, hServe, hOther⟩
      · rw [Rendering.statements_blank hRest hBlank, Rendering.statements_blank hRest hBlank]
        simp only [statementAsks, hBlank] at h
        exact statements_eq_of_outcome (h _ List.mem_cons_self) rfl
      · rw [Rendering.statements_serve hRest hServe, Rendering.statements_serve hRest hServe]
        simp only [statementAsks, hServe] at h
        have hGauge := Rendering.gauge_serve (session.level_nested resolve) (r.moveTo rest) session
        have hServed : Rendering.serve nested (r.moveTo rest) session =
            Rendering.serve (session.nested resolve) (r.moveTo rest) session :=
          serve_eq_of_walk fun opened hOpened => walk_eq_of_outcome
            (h _ (List.mem_append_left _ (by rw [hOpened]; exact List.mem_cons_self))) rfl
        rw [hServed]
        rcases hDone : Rendering.serve (session.nested resolve) (r.moveTo rest) session with
          ⟨result, after, final⟩
        rw [hDone] at hGauge h
        cases result with
        | error e => rfl
        | ok text =>
            exact statements_eq_of_outcome (h _ (List.mem_append_right _ List.mem_cons_self))
              (Session.nested_congr resolve hGauge)
      · rw [Rendering.statements_setup hRest hKind hReader,
          Rendering.statements_setup hRest hKind hReader]
        have hGauge := Rendering.gauge_setup resolve reader (r.moveTo rest) session
        have hServe : keyword ≠ .serve := by
          rintro rfl
          cases hReader
        rcases hDone : Rendering.setup resolve reader (r.moveTo rest) session with
          ⟨result, after, final⟩
        rw [hDone] at hGauge
        cases result with
        | error e => rfl
        | ok _ =>
            simp only [statementAsks, hKind, hReader, hDone] at h
            exact statements_eq_of_outcome (h _ List.mem_cons_self)
              (Session.nested_congr resolve hGauge)
      · rw [Rendering.statements_misplaced hRest hBlank hServe hOther,
          Rendering.statements_misplaced hRest hBlank hServe hOther]

theorem turns_eq_of_asks {tokens : List Token} {context : Context} {binding : String}
    {index : Nat} {items : List Data} {session : Session}
    (h : Answered resolve nested
      ((turns tokens context binding index items session).asks resolve)) :
    renderItems nested tokens context binding index items session =
      renderItems (session.nested resolve) tokens context binding index items session := by
  cases items with
  | nil => rfl
  | cons item rest =>
      have hTurn := renderBody_eq_of_outcome (h _ List.mem_cons_self) rfl
      have hGauge := gauge_renderBody (session.level_nested resolve) tokens
        { context with bag := context.bag.forItem binding item index } session
      simp only [asks] at h
      simp only [renderItems, hTurn]
      rcases hDone : renderBody (session.nested resolve) tokens
        { context with bag := context.bag.forItem binding item index } session with ⟨result, final⟩
      rw [hDone] at hGauge
      simp only [hDone] at h
      cases result with
      | error e => rfl
      | ok fragment =>
          have hLater := renderItems_eq_of_outcome
            (h _ (List.mem_cons_of_mem _ List.mem_cons_self)) (Session.nested_congr resolve hGauge)
          simp only [hLater]

/-- A task is rendered alike if what it asks for is. -/
theorem render_eq_of_asks {context : Context} {session : Session} {task : Task}
    (h : Answered resolve nested (task.asks context session)) :
    task.render nested resolve context session =
      task.render (session.nested resolve) resolve context session := by
  cases task with
  | component k bag =>
      have hRendered := statements_eq_of_outcome (h _ List.mem_cons_self) rfl
      exact congrArg (fun rendered : Except RenderError (List Char) × Rendering × Session =>
        (rendered.1.map (substitute bag), rendered.2.2)) hRendered
  | content tokens =>
      have hRendered := renderBody_eq_of_outcome (h _ List.mem_cons_self) rfl
      simp only [Task.render, hRendered]
  | block source =>
      simp only [Task.asks] at h
      simp only [Task.render, renderBlock]
      cases hScan : Token.scanMarkup source context.file with
      | error e => rfl
      | ok tokens =>
          simp only [hScan] at h
          exact renderBody_eq_of_outcome (h _ List.mem_cons_self) rfl
  | loop head source =>
      simp only [Task.asks] at h
      simp only [Task.render, renderLoop]
      cases hScan : Token.scanMarkup source context.file with
      | error e => rfl
      | ok tokens =>
          simp only [hScan] at h
          dsimp only
          split at h
          · next hDynamic =>
            rw [if_pos hDynamic, if_pos hDynamic]
            exact renderItems_eq_of_outcome (h _ List.mem_cons_self) rfl
          · next hStatic =>
            rw [if_neg hStatic, if_neg hStatic]
            rw [renderBody_eq_of_outcome (h _ List.mem_cons_self) rfl]
            rfl

/-- What comes of an activity is settled by the work that it leads to: `nested` may do as it likes
with all other work. -/
theorem outcomeBy_eq_outcome (led : Activity → Prop)
    (hAsks : ∀ a b, led a → b ∈ a.asks resolve → led b)
    (hWork : ∀ context task token session, led (work context task token session) →
      Answered resolve nested ((work context task token session).asks resolve) →
      nested context task token session = session.nested resolve context task token session)
    {a : Activity} (hLed : led a) : a.outcomeBy nested resolve = a.outcome resolve := by
  induction a using (asks_wellFounded resolve).induction with
  | h a ih =>
      have hAnswered : Answered resolve nested (a.asks resolve) := fun b hb =>
        ih b hb (hAsks a b hLed hb)
      cases a with
      | work context task token session =>
          exact work_outcomeBy_eq.mpr (hWork context task token session hLed hAnswered)
      | walk serve r session => exact Outcome.ofReading_inj.mpr (walk_eq_of_asks hAnswered)
      | statements html r session =>
          exact Outcome.ofReading_inj.mpr (statements_eq_of_asks hAnswered)
      | turns tokens context binding index items session =>
          exact Outcome.ofWork_inj.mpr (turns_eq_of_asks hAnswered)

end Activity

/-- Work that is rendered by a recursion which knows of no levels that are left: it asks the
session how deep it is, refuses at the limit and goes one level deeper below. -/
def Nested.Counts (nested : Nested) (resolve : Resolver) : Prop :=
  ∀ context task token session,
    nested context task token session =
      if session.depth < session.maxDepth then
        let done := task.render nested resolve context session.enter
        (done.1, done.2.leave)
      else (.error (.runtime (.tooDeep session.maxDepth) token.location), session)

/-- Work with the levels that its session has left. -/
def nestedByDepth (resolve : Resolver) : Nested :=
  fun context task token session => session.nested resolve context task token session

theorem nestedByDepth_counts (resolve : Resolver) : (nestedByDepth resolve).Counts resolve := by
  intro context task token session
  split
  · next hDepth =>
    have hSame : Activity.Answered resolve (nestedByDepth resolve)
        (task.asks context session.enter) := fun b _ =>
      Activity.outcomeBy_eq_outcome (fun _ => True) (fun _ _ _ _ => trivial)
        (fun _ _ _ _ _ _ => rfl) trivial
    rw [Activity.render_eq_of_asks hSame]
    exact Session.nested_eq resolve hDepth task token
  · next hDepth => exact Session.nested_eq_error resolve (Nat.le_of_not_lt hDepth) task token

/-- There is no other such recursion. -/
theorem Nested.Counts.eq_nestedByDepth {resolve : Resolver} {nested : Nested}
    (h : nested.Counts resolve) : nested = nestedByDepth resolve := by
  funext context task token session
  apply Activity.work_outcomeBy_eq.mp
  refine Activity.outcomeBy_eq_outcome (fun _ => True) (fun _ _ _ _ => trivial) ?_ trivial
  intro context task token session _ hAsks
  rw [h]
  split
  · next hDepth =>
    change Activity.Answered resolve nested
      (if session.depth < session.maxDepth then task.asks context session.enter else []) at hAsks
    rw [if_pos hDepth] at hAsks
    rw [Activity.render_eq_of_asks hAsks]
    exact (Session.nested_eq resolve hDepth task token).symm
  · next hDepth =>
    exact (Session.nested_eq_error resolve (Nat.le_of_not_lt hDepth) task token).symm

end HtmlTemplate
