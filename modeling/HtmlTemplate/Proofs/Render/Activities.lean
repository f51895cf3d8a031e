import HtmlTemplate.Proofs.Render.Levels
import Mathlib.Order.WellFounded

/-! The course of rendering as activities that ask for each other. A template asks for the walk
through what it serves, a walk for the work that its tokens need and for the walk behind them,
work for templates, walks and the turns of loops. Each is asked for in a session; where it lies
between the beginning and the end of the whole is what the session is like in the meantime. -/
namespace HtmlTemplate

/-- What rendering is busy with, and the session in which that begins. -/
inductive Activity where
  | work (context : Context) (task : Task) (token : Token) (session : Session)
  | walk (serve : Bool) (r : Rendering) (session : Session)
  | statements (html : List Char) (r : Rendering) (session : Session)
  | turns (tokens : List Token) (context : Context) (binding : String) (index : Nat)
      (items : List Data) (session : Session)

/-- What comes of an activity: a text or an error, the place behind it if there is one, and the
session. -/
structure Outcome where
  result : Except RenderError (List Char)
  place : Option Rendering
  session : Session

/-- What comes of something that is at no place in tokens. -/
def Outcome.ofWork (done : Except RenderError (List Char) × Session) : Outcome :=
  ⟨done.1, none, done.2⟩

/-- What comes of something that moves on in tokens. -/
def Outcome.ofReading (done : Except RenderError (List Char) × Rendering × Session) : Outcome :=
  ⟨done.1, some done.2.1, done.2.2⟩

theorem Outcome.ofWork_inj {done other : Except RenderError (List Char) × Session} :
    ofWork done = ofWork other ↔ done = other :=
  ⟨fun h => Prod.ext (congrArg result h) (congrArg session h), congrArg ofWork⟩

theorem Outcome.ofReading_inj {done other : Except RenderError (List Char) × Rendering × Session} :
    ofReading done = ofReading other ↔ done = other :=
  ⟨fun h => Prod.ext (congrArg result h)
    (Prod.ext (Option.some.inj (congrArg place h)) (congrArg session h)), congrArg ofReading⟩

namespace Activity

def session : Activity → Session
  | work _ _ _ session | walk _ _ session | statements _ _ session | turns _ _ _ _ _ session =>
    session

/-- The tokens and items that are left. Work has not looked at any yet. -/
def remaining : Activity → Nat
  | work .. => 0
  | walk _ r _ | statements _ r _ => r.rest.length
  | turns tokens _ _ _ items _ => tokens.length + items.length

/-- The levels that are left, and then the tokens and items. -/
def budget (a : Activity) : Nat × Nat :=
  (a.session.maxDepth - a.session.depth, a.remaining)

/-- How many levels deeper that is done which an activity asks for. -/
def levels : Activity → Nat
  | work .. => 1
  | _ => 0

/-- What comes of an activity if work is done by `nested`. -/
def outcomeBy (nested : Nested) (resolve : Resolver) : Activity → Outcome
  | work context task token session => .ofWork (nested context task token session)
  | walk serve r session => .ofReading (Rendering.walk nested serve r session)
  | statements html r session => .ofReading (Rendering.statements nested resolve html r session)
  | turns tokens context binding index items session =>
    .ofWork (renderItems nested tokens context binding index items session)

/-- What comes of an activity. -/
def outcome (resolve : Resolver) (a : Activity) : Outcome :=
  a.outcomeBy (a.session.nested resolve) resolve

/-- The markup of a list of tokens. -/
def markup (tokens : List Token) (context : Context) (session : Session) : Activity :=
  walk false (Rendering.start tokens context).enter session

end Activity

/-- The work that an action asks for. -/
def Action.asks (resolve : Resolver) (context : Context) (session : Session) :
    Action → List Activity
  | .run task token => [.work context task token session]
  | .wrap component attributes content token =>
    .work context (.content content) token session ::
      match session.nested resolve context (.content content) token session with
      | (.ok slot, session) =>
        [.work context (.component component (wrapBag attributes context.bag slot)) token session]
      | (.error _, _) => []
  | _ => []

/-- What a task asks for once its level has been entered. -/
def Task.asks (context : Context) (session : Session) : Task → List Activity
  | .component k bag =>
    [.statements [] (Rendering.start k.tokens ⟨bag, k.scopes, k.file⟩) session]
  | .content tokens => [.markup tokens context session]
  | .block source =>
    match Token.scanMarkup source context.file with
    | .error _ => []
    | .ok tokens =>
      let (session, scopes) := session.blockScopes context.scopes
      [.markup tokens { context with scopes } session]
  | .loop head source =>
    match Token.scanMarkup source context.file with
    | .error _ => []
    | .ok tokens =>
      let (session, scopes) := session.blockScopes context.scopes
      let context := { context with scopes }
      if tokens.any (Token.isDynamic session scopes) then
        [.turns tokens context head.binding 0 head.items session]
      else [.markup tokens context session]

namespace Activity

/-- What the statements of a template ask for. -/
def statementAsks (resolve : Resolver) (html : List Char) (r : Rendering) (session : Session) :
    List Token → List Activity
  | [] => []
  | token :: rest =>
    let nested := session.nested resolve
    let behind := r.moveTo rest
    match token.kind with
    | .blank => [.statements html behind session]
    | .keyword .serve =>
      (match behind.openServe with
        | (.ok _, opened) => [.walk true opened.enter session]
        | (.error _, _) => []) ++
      match Rendering.serve nested behind session with
      | (.ok text, after, session) => [.statements (html ++ text) after session]
      | (.error _, _) => []
    | .keyword keyword =>
      match Setup.reader? r.endLocation keyword with
      | some reader =>
        match Rendering.setup resolve reader behind session with
        | (.ok _, after, session) => [.statements html after session]
        | (.error _, _) => []
      | none => []
    | _ => []

/-- What the walk through markup asks for. -/
def walkAsks (resolve : Resolver) (serve : Bool) (r : Rendering) (session : Session) :
    List Token → List Activity
  | [] => []
  | token :: rest =>
    match token.kind.misplaced? with
    | some _ => []
    | none =>
      let (action, after) := (r.moveTo rest).step session serve token
      action.asks resolve r.context session ++
        match action.perform (session.nested resolve) r.context session with
        | (.ok _, session) => if action.isClose then [] else [.walk serve after session]
        | (.error _, _) => []

/-- What an activity asks for itself, in order. -/
def asks (resolve : Resolver) : Activity → List Activity
  | work context task _ session =>
    if session.depth < session.maxDepth then task.asks context session.enter else []
  | walk serve r session => walkAsks resolve serve r session r.rest
  | statements html r session => statementAsks resolve html r session r.rest
  | turns _ _ _ _ [] _ => []
  | turns tokens context binding index (item :: rest) session =>
    let turn := { context with bag := context.bag.forItem binding item index }
    .markup tokens turn session ::
      match renderBody (session.nested resolve) tokens turn session with
      | (.ok _, session) => [.turns tokens context binding (index + 1) rest session]
      | (.error _, _) => []

end Activity

/-- Whatever comes of an activity, the session is as deep behind it as before. -/
theorem Activity.gauge_outcome (resolve : Resolver) (a : Activity) :
    (a.outcome resolve).session.gauge = a.session.gauge := by
  have hNested := a.session.level_nested resolve
  cases a with
  | work context task token session => exact hNested context task token session
  | walk serve r session => exact Rendering.gauge_walk hNested serve r session
  | statements html r session => exact Rendering.gauge_statements hNested resolve html r session
  | turns tokens context binding index items session =>
      exact gauge_renderItems hNested tokens context binding index items session

theorem Action.gauge_of_mem_asks {resolve : Resolver} {context : Context} {session : Session}
    {action : Action} {b : Activity} (h : b ∈ action.asks resolve context session) :
    b.session.gauge = session.gauge ∧ b.remaining = 0 := by
  cases action with
  | emit | close | fail => cases h
  | run task token =>
      cases List.mem_singleton.mp h
      exact ⟨rfl, rfl⟩
  | wrap k attributes content token =>
      have hContent := session.level_nested resolve context (.content content) token session
      rcases List.mem_cons.mp h with rfl | hBehind
      · exact ⟨rfl, rfl⟩
      · split at hBehind
        · next found =>
          rw [found] at hContent
          cases List.mem_singleton.mp hBehind
          exact ⟨hContent, rfl⟩
        · cases hBehind

theorem Task.gauge_of_mem_asks {context : Context} {session : Session} {task : Task} {b : Activity}
    (h : b ∈ task.asks context session) : b.session.gauge = session.gauge := by
  cases task with
  | component k bag | content tokens =>
      cases List.mem_singleton.mp h
      rfl
  | block source =>
      unfold Task.asks at h
      dsimp only at h
      split at h
      · cases h
      · cases List.mem_singleton.mp h
        rfl
  | loop head source =>
      unfold Task.asks at h
      dsimp only at h
      split at h
      · cases h
      · split at h <;>
        · cases List.mem_singleton.mp h
          rfl

namespace Activity

variable {resolve : Resolver}

/-- What is asked for on the same level has fewer tokens and items left. -/
theorem walkAsks_less {serve : Bool} {r : Rendering} {session : Session} {b : Activity}
    (h : b ∈ walkAsks resolve serve r session r.rest) :
    b.session.gauge = session.gauge ∧ b.remaining < r.rest.length := by
  cases hRest : r.rest with
  | nil =>
      rw [hRest] at h
      cases h
  | cons token rest =>
      have hSuffix := (r.moveTo rest).step_rest_suffix session serve token
      have hDone := gauge_perform (session.level_nested resolve) r.context session
        ((r.moveTo rest).step session serve token).1
      rw [hRest] at h
      unfold walkAsks at h
      rcases hStep : (r.moveTo rest).step session serve token with ⟨action, after⟩
      simp only [hStep] at h hSuffix hDone
      split at h
      · cases h
      · rcases List.mem_append.mp h with hAsked | hBehind
        · obtain ⟨hGauge, hNone⟩ := Action.gauge_of_mem_asks hAsked
          exact ⟨hGauge, hNone ▸ Nat.succ_pos _⟩
        · split at hBehind
          · next found =>
            rw [found] at hDone
            split at hBehind
            · cases hBehind
            · cases List.mem_singleton.mp hBehind
              exact ⟨hDone, Nat.lt_succ_of_le hSuffix.length_le⟩
          · cases hBehind

theorem statementAsks_less {html : List Char} {r : Rendering} {session : Session} {b : Activity}
    (h : b ∈ statementAsks resolve html r session r.rest) :
    b.session.gauge = session.gauge ∧ b.remaining < r.rest.length := by
  cases hRest : r.rest with
  | nil =>
      rw [hRest] at h
      cases h
  | cons token rest =>
      rw [hRest] at h
      unfold statementAsks at h
      dsimp only at h
      split at h
      · cases List.mem_singleton.mp h
        exact ⟨rfl, Nat.lt_succ_self _⟩
      · rcases List.mem_append.mp h with hAsked | hBehind
        · have hSuffix := (r.moveTo rest).openServe_rest_suffix
          split at hAsked
          · next found =>
            rw [found] at hSuffix
            cases List.mem_singleton.mp hAsked
            exact ⟨rfl, Nat.lt_succ_of_le hSuffix.length_le⟩
          · cases hAsked
        · have hSuffix := Rendering.serve_rest_suffix (session.nested resolve) (r.moveTo rest)
            session
          have hServed := Rendering.gauge_serve (session.level_nested resolve) (r.moveTo rest)
            session
          split at hBehind
          · next found =>
            rw [found] at hSuffix hServed
            cases List.mem_singleton.mp hBehind
            exact ⟨hServed, Nat.lt_succ_of_le hSuffix.length_le⟩
          · cases hBehind
      · split at h
        · next reader _ =>
          have hSuffix := Rendering.setup_rest_suffix resolve reader (r.moveTo rest) session
          have hDone := Rendering.gauge_setup resolve reader (r.moveTo rest) session
          split at h
          · next found =>
            rw [found] at hSuffix hDone
            cases List.mem_singleton.mp h
            exact ⟨hDone, Nat.lt_succ_of_le hSuffix.length_le⟩
          · cases h
        · cases h
      · cases h

theorem turnAsks_less {tokens : List Token} {context : Context} {binding : String} {index : Nat}
    {items : List Data} {session : Session} {b : Activity}
    (h : b ∈ (turns tokens context binding index items session).asks resolve) :
    b.session.gauge = session.gauge ∧ b.remaining < tokens.length + items.length := by
  cases items with
  | nil => cases h
  | cons item rest =>
      rcases List.mem_cons.mp h with rfl | hBehind
      · exact ⟨rfl, Nat.lt_add_of_pos_right (Nat.succ_pos _)⟩
      · have hTurn := gauge_renderBody (session.level_nested resolve) tokens
          { context with bag := context.bag.forItem binding item index } session
        split at hBehind
        · next found =>
          rw [found] at hTurn
          cases List.mem_singleton.mp hBehind
          exact ⟨hTurn, Nat.lt_succ_self _⟩
        · cases hBehind

/-- One activity asks for another: how deep that is done, and how much is left for it. -/
structure Asked (a b : Activity) : Prop where
  depth_eq : b.session.depth = a.session.depth + a.levels
  limit_eq : b.session.maxDepth = a.session.maxDepth
  fits : a.session.depth ≤ a.session.maxDepth → b.session.depth ≤ b.session.maxDepth
  less : Prod.Lex (· < ·) (· < ·) b.budget a.budget

theorem Asked.of_gauge {a b : Activity} (hLevels : a.levels = 0)
    (h : b.session.gauge = a.session.gauge ∧ b.remaining < a.remaining) : a.Asked b := by
  obtain ⟨hDepth, hLimit⟩ := Prod.mk.inj h.1
  refine ⟨by rw [hDepth, hLevels, Nat.add_zero], hLimit, ?_, ?_⟩
  · intro hFits
    rwa [hDepth, hLimit]
  · unfold budget
    rw [hDepth, hLimit]
    exact .right _ h.2

/-- One step: an activity asks for nothing beyond the limit, goes deeper by the level that work
takes, and leaves less. -/
theorem asked_of_mem_asks {a b : Activity} (h : b ∈ a.asks resolve) : a.Asked b := by
  cases a with
  | walk serve r session => exact .of_gauge rfl (walkAsks_less h)
  | statements html r session => exact .of_gauge rfl (statementAsks_less h)
  | turns tokens context binding index items session => exact .of_gauge rfl (turnAsks_less h)
  | work context task token session =>
      change b ∈ if session.depth < session.maxDepth then task.asks context session.enter
        else [] at h
      split at h
      · next hBelow =>
        obtain ⟨hDepth, hLimit⟩ := Prod.mk.inj (Task.gauge_of_mem_asks h)
        refine ⟨hDepth, hLimit, fun _ => ?_, .left _ _ ?_⟩
        · rw [hDepth, hLimit]
          exact hBelow
        · rw [hDepth, hLimit]
          exact Nat.sub_lt_sub_left hBelow (Nat.lt_succ_self _)
      · cases h

/-- What an activity leads to, with the number of levels in between. -/
inductive Leads (resolve : Resolver) (a : Activity) : Nat → Activity → Prop where
  | refl : Leads resolve a 0 a
  | step {levels : Nat} {b c : Activity} (hLeads : Leads resolve a levels b)
      (hAsks : c ∈ b.asks resolve) : Leads resolve a (levels + b.levels) c

/-- A run: all that an activity leads to is as deep as the levels on the way say, and within the
limit. -/
theorem Leads.depth_eq {a b : Activity} {levels : Nat} (h : Leads resolve a levels b)
    (hFits : a.session.depth ≤ a.session.maxDepth) :
    b.session.depth = a.session.depth + levels ∧ b.session.maxDepth = a.session.maxDepth ∧
      b.session.depth ≤ b.session.maxDepth := by
  induction h with
  | refl => exact ⟨rfl, rfl, hFits⟩
  | step hLeads hAsks ih =>
      obtain ⟨hDepth, hLimit, hWithin⟩ := ih
      have hStep := asked_of_mem_asks hAsks
      exact ⟨by rw [hStep.depth_eq, hDepth, Nat.add_assoc], hStep.limit_eq.trans hLimit,
        hStep.fits hWithin⟩

end Activity

end HtmlTemplate
