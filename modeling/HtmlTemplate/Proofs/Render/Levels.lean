import HtmlTemplate.Proofs.Render.Setup
import HtmlTemplate.Proofs.Render.Templates

/-! Levels are left as they were entered. Whatever is rendered, and however it ends, the session
is as deep afterwards as it was before, and may go as deep. -/
namespace HtmlTemplate

namespace Session

/-- How deep a session is, and how deep it may go. -/
def gauge (session : Session) : Nat × Nat :=
  (session.depth, session.maxDepth)

theorem leave_enter (session : Session) : session.enter.leave = session := rfl

/-- A session that has come back to the level where it began is left for the one above. -/
theorem gauge_leave {session entered : Session} (h : entered.gauge = session.enter.gauge) :
    entered.leave.gauge = session.gauge :=
  congrArg (fun gauge : Nat × Nat => (gauge.1 - 1, gauge.2)) h

/-- Below the limit, work is done one level deeper. -/
theorem nested_eq {session : Session} {context : Context} (resolve : Resolver)
    (hDepth : session.depth < session.maxDepth) (task : Task) (token : Token) :
    session.nested resolve context task token session =
      ((task.render (session.enter.nested resolve) resolve context session.enter).1,
        (task.render (session.enter.nested resolve) resolve context session.enter).2.leave) := by
  have hLevels : session.maxDepth - session.depth =
      session.enter.maxDepth - session.enter.depth + 1 := by
    show _ = session.maxDepth - (session.depth + 1) + 1
    omega
  unfold Session.nested
  rw [hLevels]
  rfl

/-- At the limit, work is refused. -/
theorem nested_eq_error {session : Session} {context : Context} (resolve : Resolver)
    (hDepth : session.maxDepth ≤ session.depth) (task : Task) (token : Token) :
    session.nested resolve context task token session =
      (.error (.runtime (.tooDeep session.maxDepth) token.location), session) := by
  unfold Session.nested
  rw [Nat.sub_eq_zero_of_le hDepth]
  rfl

/-- Sessions of one gauge have their work done alike. -/
theorem nested_congr {session other : Session} (resolve : Resolver)
    (h : session.gauge = other.gauge) : session.nested resolve = other.nested resolve :=
  congrArg (fun gauge : Nat × Nat => nestedWithin resolve (gauge.2 - gauge.1)) h

end Session

/-- Work that comes back to the depth where it began. -/
def Nested.Level (nested : Nested) : Prop :=
  ∀ context task token session, (nested context task token session).2.gauge = session.gauge

namespace Setup

theorem gauge_defineFunctions (scopes : Scopes) (fs : List Function) (session : Session) :
    (fs.foldl (defineFunction scopes) session).gauge = session.gauge := by
  induction fs generalizing session with
  | nil => rfl
  | cons f rest ih => exact ih (defineFunction scopes session f)

theorem gauge_run (resolve : Resolver) (context : Context) (session : Session)
    (statement : Setup) : (statement.run resolve context session).2.gauge = session.gauge := by
  cases statement with
  | useFunctions group => exact gauge_defineFunctions context.scopes _ session
  | declare f => rfl
  | linkAsset kind path => cases kind <;> rfl
  | importComponent name path location =>
      rw [run, defineComponent_eq]
      split
      · rfl
      · cases importSource resolve context.file path location <;> rfl

end Setup

theorem Rendering.gauge_setup (resolve : Resolver) (reader : Reading Setup) (r : Rendering)
    (session : Session) : (setup resolve reader r session).2.2.gauge = session.gauge := by
  unfold setup
  dsimp only
  split
  · rfl
  · exact Setup.gauge_run resolve _ session _

section

variable {nested : Nested} (hNested : nested.Level)

include hNested

theorem gauge_perform (context : Context) (session : Session) (action : Action) :
    (action.perform nested context session).2.gauge = session.gauge := by
  cases action with
  | emit | close | fail => rfl
  | run task token => exact hNested context task token session
  | wrap k attributes content token =>
      have hContent := hNested context (.content content) token session
      unfold Action.perform
      dsimp only
      revert hContent
      rcases nested context (.content content) token session with ⟨result, middle⟩
      intro hContent
      cases result with
      | error e => exact hContent
      | ok slot => exact (hNested _ _ token middle).trans hContent

namespace Rendering

theorem gauge_walk (serve : Bool) (r : Rendering) (session : Session) :
    (walk nested serve r session).2.2.gauge = session.gauge := by
  fun_induction walk nested serve r session with
  | case1 | case2 => rfl
  | case3 r session token rest found _ stepped => exact gauge_perform hNested _ _ _
  | case4 r session token rest found _ stepped => exact gauge_perform hNested _ _ _
  | case5 r session token rest found _ stepped _ _ _ _ _ ih =>
      exact ih.trans (gauge_perform hNested _ _ _)

theorem gauge_serve (r : Rendering) (session : Session) :
    (serve nested r session).2.2.gauge = session.gauge := by
  unfold serve
  dsimp only
  split
  · exact gauge_walk hNested true _ session
  · rfl

theorem gauge_statements (resolve : Resolver) (html : List Char) (r : Rendering)
    (session : Session) :
    (statements nested resolve html r session).2.2.gauge = session.gauge := by
  fun_induction statements nested resolve html r session with
  | case1 | case7 | case8 => rfl
  | case2 _ _ _ _ _ _ _ ih => exact ih
  | case3 _ r session _ rest _ _ served _ _ ih =>
      exact ih.trans (gauge_serve hNested { r with rest } session)
  | case4 _ r session _ rest => exact gauge_serve hNested { r with rest } session
  | case5 _ r session _ rest _ _ _ _ reader _ done _ _ ih =>
      exact ih.trans (gauge_setup resolve reader { r with rest } session)
  | case6 _ r session _ rest _ _ _ _ reader =>
      exact gauge_setup resolve reader { r with rest } session

end Rendering

theorem gauge_renderBody (tokens : List Token) (context : Context) (session : Session) :
    (renderBody nested tokens context session).2.gauge = session.gauge :=
  Rendering.gauge_walk hNested false (Rendering.start tokens context).enter session

theorem gauge_renderItems (tokens : List Token) (context : Context) (binding : String)
    (index : Nat) (items : List Data) (session : Session) :
    (renderItems nested tokens context binding index items session).2.gauge = session.gauge := by
  fun_induction renderItems nested tokens context binding index items session with
  | case1 => rfl
  | case2 index item rest session bag e middle hDone =>
      have hTurn := gauge_renderBody hNested tokens { context with bag } session
      rwa [hDone] at hTurn
  | case3 index item rest session bag fragment middle hDone later ih =>
      have hTurn := gauge_renderBody hNested tokens { context with bag } session
      rw [hDone] at hTurn
      exact ih.trans hTurn

theorem gauge_renderLoop (context : Context) (head : LoopHead) (source : String)
    (session : Session) : (renderLoop nested context head source session).2.gauge =
      session.gauge := by
  unfold renderLoop
  cases Token.scanMarkup source context.file with
  | error e => rfl
  | ok tokens =>
      dsimp only
      split
      · exact gauge_renderItems hNested _ _ _ _ _ _
      · exact gauge_renderBody hNested _ _ _

theorem gauge_renderBlock (context : Context) (source : String) (session : Session) :
    (renderBlock nested context source session).2.gauge = session.gauge := by
  unfold renderBlock
  cases Token.scanMarkup source context.file with
  | error e => rfl
  | ok tokens => exact gauge_renderBody hNested _ _ _

theorem gauge_task (resolve : Resolver) (context : Context) (session : Session) (task : Task) :
    (task.render nested resolve context session).2.gauge = session.gauge := by
  cases task with
  | component k bag => exact Rendering.gauge_statements hNested resolve [] _ session
  | content tokens => exact gauge_renderBody hNested tokens context session
  | block source => exact gauge_renderBlock hNested context source session
  | loop head source => exact gauge_renderLoop hNested context head source session

end

theorem level_nestedWithin (resolve : Resolver) (levels : Nat) :
    (nestedWithin resolve levels).Level := by
  induction levels with
  | zero => exact fun _ _ _ _ => rfl
  | succ levels ih =>
      intro context task token session
      have hDone := gauge_task ih resolve context session.enter task
      exact Session.gauge_leave hDone

theorem Session.level_nested (resolve : Resolver) (session : Session) :
    (session.nested resolve).Level :=
  level_nestedWithin resolve _

/-- Rendering a template anew leaves the session as deep as it was. -/
theorem Rendering.depth_update (resolve : Resolver) (bag : Bag) (r : Rendering)
    (session : Session) :
    (r.update (session.nested resolve) resolve bag session).2.2.depth = session.depth :=
  congrArg Prod.fst (gauge_statements (session.level_nested resolve) resolve [] _ session)

end HtmlTemplate
