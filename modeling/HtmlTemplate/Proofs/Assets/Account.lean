import HtmlTemplate.Proofs.Assets.Faults
import HtmlTemplate.Proofs.Render.Walk

/-! Rendering keeps an account. Whatever is rendered in a session of one page, the page
lists afterwards what it listed before and what has been registered since, and no component
has linked anything on the way. Each function of the renderer does so if the work it hands
out does, and by induction on the levels all work does. -/
namespace HtmlTemplate

/-- The fragment of a component under some parameters, with nothing linked into it. -/
def Component.fragment (resolve : Resolver) (levels : Nat) (k : Component) (bag : Bag)
    (session : Session) : Except RenderError (List Char) :=
  (k.unlinked (nestedWithin resolve levels) (eventsWithin resolve levels) resolve bag
    session).result.map (substitute bag)

/-- A file is registered under a path with its extension. A component that is invoked gives
its fragment as it is, and does not fail for want of a head. -/
def Event.Sound (resolve : Resolver) : Event → Prop
  | .registered kind path => ∃ written : String, isAssetPath written.toList = true ∧
      path = withAssetExtension written kind.extension
  | .invoked levels k bag session =>
    (renderComponent (nestedWithin resolve levels) resolve k bag session).1 =
      k.fragment resolve levels bag session ∧
    ∀ e, (renderComponent (nestedWithin resolve levels) resolve k bag session).1 = .error e →
      ¬e.IsMissingHead

/-- What has happened between two sessions accounts for what the page lists. -/
structure Accounts (resolve : Resolver) {α : Type} (past events : List Event) (session : Session)
    (done : Except RenderError α × Session) : Prop where
  grows : session.Grows done.2
  keeps : done.2.Keeps (past ++ events)
  sound : ∀ event ∈ events, event.Sound resolve
  clean : Clean (fun _ => True) done.1

/-- The events told of work account for it. -/
def Told (resolve : Resolver) (nested : Nested) (happens : NestedEvents) : Prop :=
  ∀ ⦃past context task token session⦄, session.Keeps past → session.Holds context.scopes →
    task.Fits session →
    Accounts resolve past (happens context task token session) session
      (nested context task token session)

section

variable {resolve : Resolver} {α β : Type} {past events more : List Event}
  {session middle : Session}

theorem Accounts.nothing {x : Except RenderError α} (h : session.Keeps past)
    (hClean : Clean (fun _ => True) x) : Accounts resolve past [] session (x, session) where
  grows := .refl session
  keeps := by rwa [List.append_nil]
  sound := nofun
  clean := hClean

/-- One account continues another. -/
theorem Accounts.append {x : Except RenderError α} {done : Except RenderError β × Session}
    (h : Accounts resolve past events session (x, middle))
    (hNext : Accounts resolve (past ++ events) more middle done) :
    Accounts resolve past (events ++ more) session done where
  grows := h.grows.trans hNext.grows
  keeps := by
    rw [← List.append_assoc]
    exact hNext.keeps
  sound event hMem := (List.mem_append.mp hMem).elim (h.sound event) (hNext.sound event)
  clean := hNext.clean

/-- Opening frames is not an event. -/
theorem Accounts.opened {done : Except RenderError α × Session}
    (hGrows : session.Grows middle) (h : Accounts resolve past events middle done) :
    Accounts resolve past events session done :=
  ⟨hGrows.trans h.grows, h.keeps, h.sound, h.clean⟩

theorem Accounts.left {x : Except RenderError α}
    (h : Accounts resolve past events session (x, middle)) :
    Accounts resolve past events session (x, middle.leave) :=
  ⟨h.grows.trans middle.opens_leave.grows, h.keeps.leave, h.sound, h.clean⟩

theorem Accounts.map {x : Except RenderError α}
    (h : Accounts resolve past events session (x, middle)) (f : α → β) :
    Accounts resolve past events session (x.map f, middle) :=
  ⟨h.grows, h.keeps, h.sound, h.clean.map fun _ => id⟩

/-- What has failed has failed whatever it was to give. -/
theorem Accounts.failed {e : RenderError}
    (h : Accounts resolve past events session ((.error e : Except RenderError α), middle)) :
    Accounts resolve past events session ((.error e : Except RenderError β), middle) :=
  ⟨h.grows, h.keeps, h.sound, h.clean⟩

variable {nested : Nested} {happens : NestedEvents} {context : Context}

theorem perform_accounts (hNested : Told resolve nested happens) (hKeeps : session.Keeps past)
    (hHolds : session.Holds context.scopes) {action : Action} (hFits : action.Fits session) :
    Accounts resolve past (action.events nested happens context session) session
      (action.perform nested context session) := by
  cases action with
  | emit text => exact .nothing hKeeps trivial
  | close => exact .nothing hKeeps trivial
  | fail e => exact .nothing hKeeps hFits
  | run task token => exact hNested hKeeps hHolds hFits
  | wrap k attributes content token =>
      have hContent : Accounts resolve past (happens context (.content content) token session)
          session (nested context (.content content) token session) :=
        hNested hKeeps hHolds trivial
      simp only [Action.events, Action.perform]
      revert hContent
      rcases nested context (.content content) token session with ⟨result, middle⟩
      intro hContent
      cases result with
      | error e =>
          rw [List.append_nil]
          exact hContent
      | ok slot =>
          have hKnows : middle.Knows k := hContent.grows.knows hFits
          exact hContent.append (hNested hContent.keeps (hHolds.grows hContent.grows) hKnows)

namespace Rendering

/-- A walk accounts for what happens on it. -/
theorem walk_accounts (hNested : Told resolve nested happens) (serve : Bool) (r : Rendering)
    (hKeeps : session.Keeps past) (hHolds : session.Holds r.context.scopes) :
    Accounts resolve past (walkEvents nested happens serve r session) session
      ((walk nested serve r session).1, (walk nested serve r session).2.2) := by
  fun_induction walkEvents nested happens serve r session generalizing past
  case case1 r session hRest =>
    rw [walk_nil nested serve session hRest]
    exact .nothing hKeeps ((r.clean_finish serve).map fun _ => id)
  case case2 r session token rest hRest expectation hMisplaced =>
    rw [walk_misplaced nested serve session hRest hMisplaced]
    exact .nothing hKeeps id
  case case3 r session token rest hRest hPlaced stepped done ih =>
    have hAction : Accounts resolve past (stepped.1.events nested happens r.context session)
        session (stepped.1.perform nested r.context session) :=
      perform_accounts hNested hKeeps hHolds (step_fits _ session serve token)
    have hContext : stepped.2.context = r.context :=
      step_context (r.moveTo rest) session serve token
    cases hResult : done.1 with
    | error e =>
        have hDone : stepped.1.perform nested r.context session = (.error e, done.2) :=
          Prod.ext hResult rfl
        rw [hDone] at hAction
        rw [walk_of_error hRest hPlaced rfl hDone]
        simpa only [List.append_nil] using hAction
    | ok text =>
        have hDone : stepped.1.perform nested r.context session = (.ok text, done.2) :=
          Prod.ext hResult rfl
        rw [hDone] at hAction
        dsimp only
        split
        · next hClose =>
          rw [walk_of_close hRest hPlaced rfl hDone hClose, List.append_nil]
          exact hAction
        · next hOpen =>
          have hLater := ih hAction.keeps (hContext ▸ hHolds.grows hAction.grows)
          rw [walk_of_ok hRest hPlaced rfl hDone (Bool.not_eq_true _ ▸ hOpen)]
          exact hAction.append (hLater.map (text ++ ·))

/-- So does the body of `serve`. -/
theorem serve_accounts (hNested : Told resolve nested happens) (r : Rendering)
    (hKeeps : session.Keeps past) (hHolds : session.Holds r.context.scopes) :
    Accounts resolve past (serveEvents nested happens r session) session
      ((serve nested r session).1, (serve nested r session).2.2) := by
  have hContext : r.openServe.2.enter.context = r.context := r.openServe_context
  have hClean := r.clean_openServe
  unfold serveEvents serve
  dsimp only
  cases hOpened : r.openServe.1 with
  | error e =>
      rw [hOpened] at hClean
      exact .nothing hKeeps hClean
  | ok _ => exact walk_accounts hNested true r.openServe.2.enter hKeeps (hContext ▸ hHolds)

/-- So does a setup statement. -/
theorem setup_accounts {reader : Reading Setup} (hReader : reader.Clean Setup.Normalized)
    (r : Rendering) (hKeeps : session.Keeps past) (hHolds : session.Holds r.context.scopes) :
    Accounts resolve past (setupEvents reader r) session
      ((setup resolve reader r session).1, (setup resolve reader r session).2.2) := by
  have hRead := r.clean_read hReader
  unfold setupEvents setup
  dsimp only
  cases hFound : (r.read reader).1 with
  | error e =>
      rw [hFound] at hRead
      exact .nothing hKeeps hRead
  | ok statement =>
      rw [hFound] at hRead
      refine ⟨(Session.writes_run resolve r.context session statement).toGrows,
        hKeeps.run hHolds resolve statement, ?_, statement.clean_run resolve r.context session⟩
      cases statement with
      | linkAsset kind path =>
          intro event hMem
          cases List.mem_singleton.mp hMem
          exact hRead
      | _ => exact nofun

/-- The statements of a template account for what happens in them. -/
theorem unlinked_accounts (hNested : Told resolve nested happens) (html : List Char)
    (r : Rendering) (hKeeps : session.Keeps past) (hHolds : session.Holds r.context.scopes) :
    Accounts resolve past (unlinked nested happens resolve html r session).events session
      ((unlinked nested happens resolve html r session).result,
        (unlinked nested happens resolve html r session).session) := by
  fun_induction unlinked nested happens resolve html r session generalizing past
  case case1 => exact .nothing hKeeps trivial
  case case2 ih => exact ih hKeeps hHolds
  case case3 html r session token rest _ _ served happened _ _ ih =>
    have hServed : Accounts resolve past happened session (served.1, served.2.2) :=
      serve_accounts hNested (r.moveTo rest) hKeeps hHolds
    have hContext : served.2.1.context = r.context := serve_context nested (r.moveTo rest) session
    exact hServed.append (ih hServed.keeps (hContext ▸ hHolds.grows hServed.grows))
  case case4 html r session token rest _ _ served happened e hError =>
    have hServed : Accounts resolve past happened session (served.1, served.2.2) :=
      serve_accounts hNested (r.moveTo rest) hKeeps hHolds
    rw [hError] at hServed
    exact hServed
  case case5 html r session token rest _ keyword _ _ reader hReader done happened _ _ ih =>
    have hSetup : Accounts resolve past happened session (done.1, done.2.2) :=
      setup_accounts (Setup.clean_reader _ hReader) (r.moveTo rest) hKeeps hHolds
    have hContext : done.2.1.context = r.context :=
      setup_context resolve reader (r.moveTo rest) session
    exact hSetup.append (ih hSetup.keeps (hContext ▸ hHolds.grows hSetup.grows))
  case case6 html r session token rest _ keyword _ _ reader hReader done happened e hError =>
    have hSetup : Accounts resolve past happened session (done.1, done.2.2) :=
      setup_accounts (Setup.clean_reader _ hReader) (r.moveTo rest) hKeeps hHolds
    rw [hError] at hSetup
    exact hSetup.failed
  case case7 => exact .nothing hKeeps id
  case case8 => exact .nothing hKeeps id

end Rendering

theorem body_accounts (hNested : Told resolve nested happens) (tokens : List Token)
    (hKeeps : session.Keeps past) (hHolds : session.Holds context.scopes) :
    Accounts resolve past (bodyEvents nested happens tokens context session) session
      (renderBody nested tokens context session) :=
  Rendering.walk_accounts hNested false (Rendering.start tokens context).enter hKeeps hHolds

/-- The turns of a loop account for what happens in them, each for its own. -/
theorem items_accounts (hNested : Told resolve nested happens) (tokens : List Token)
    (binding : String) (index : Nat) (items : List Data) (hKeeps : session.Keeps past)
    (hHolds : session.Holds context.scopes) :
    Accounts resolve past (itemsEvents nested happens tokens context binding index items session)
      session (renderItems nested tokens context binding index items session) := by
  induction items generalizing index session past with
  | nil => exact .nothing hKeeps trivial
  | cons item rest ih =>
      let turn : Context := { context with bag := context.bag.forItem binding item index }
      have hTurn : Accounts resolve past (bodyEvents nested happens tokens turn session) session
          (renderBody nested tokens turn session) := body_accounts hNested tokens hKeeps hHolds
      simp only [itemsEvents, renderItems]
      revert hTurn
      change Accounts _ _ _ _ (renderBody nested tokens turn session) → _
      rcases renderBody nested tokens turn session with ⟨result, middle⟩
      intro hTurn
      cases result with
      | error e =>
          rw [List.append_nil]
          exact hTurn
      | ok fragment =>
          exact hTurn.append
            ((ih (index + 1) hTurn.keeps (hHolds.grows hTurn.grows)).map _)

theorem loop_accounts (hNested : Told resolve nested happens) (head : LoopHead) (source : String)
    (hKeeps : session.Keeps past) (hHolds : session.Holds context.scopes) :
    Accounts resolve past (loopEvents nested happens context head source session) session
      (renderLoop nested context head source session) := by
  unfold loopEvents renderLoop
  cases Token.scanMarkup source context.file with
  | error e => exact .nothing hKeeps id
  | ok tokens =>
      have hOpened := hKeeps.blockScopes context.scopes
      have hBlock := session.holds_blockScopes hHolds
      refine .opened (session.opens_blockScopes context.scopes).grows ?_
      dsimp only
      split
      · exact items_accounts hNested tokens head.binding 0 head.items hOpened hBlock
      · exact (body_accounts hNested tokens hOpened hBlock).map _

theorem block_accounts (hNested : Told resolve nested happens) (source : String)
    (hKeeps : session.Keeps past) (hHolds : session.Holds context.scopes) :
    Accounts resolve past (blockEvents nested happens context source session) session
      (renderBlock nested context source session) := by
  unfold blockEvents renderBlock
  cases Token.scanMarkup source context.file with
  | error e => exact .nothing hKeeps id
  | ok tokens =>
      refine .opened (session.opens_blockScopes context.scopes).grows ?_
      exact body_accounts hNested tokens (hKeeps.blockScopes context.scopes)
        (session.holds_blockScopes hHolds)

/-- In the frames of a component nothing is listed, so that nothing is linked. -/
theorem Session.Keeps.link_component (h : session.Keeps past) {k : Component}
    (hKnows : session.Knows k) {r : Rendering} (hScopes : r.context.scopes = k.scopes)
    (html : List Char) : r.link session html = .ok html := by
  rw [r.link_eq_mapError, hScopes, h.paths_eq_nil hKnows, h.paths_eq_nil hKnows]
  rfl

/-- A component is rendered to what it serves, with its references replaced. -/
theorem component_accounts (hNested : Told resolve nested happens) {k : Component} (bag : Bag)
    (hKeeps : session.Keeps past) (hKnows : session.Knows k) :
    (renderComponent nested resolve k bag session).1 =
      (k.unlinked nested happens resolve bag session).result.map (substitute bag) ∧
    Accounts resolve past (k.unlinked nested happens resolve bag session).events session
      (renderComponent nested resolve k bag session) := by
  let r := Rendering.start k.tokens ⟨bag, k.scopes, k.file⟩
  have hServed : Accounts resolve past (k.unlinked nested happens resolve bag session).events
      session ((k.unlinked nested happens resolve bag session).result,
        (k.unlinked nested happens resolve bag session).session) :=
    Rendering.unlinked_accounts hNested [] r hKeeps (hKeeps.housed k hKnows).1
  -- the frames of the component are as empty at the end as they were when it was imported
  have hLink (html : List Char) :
      r.link (k.unlinked nested happens resolve bag session).session html = .ok html :=
    hServed.keeps.link_component (hServed.grows.knows hKnows) rfl html
  have hLinked (x : Except RenderError (List Char)) :
      (x >>= r.link (k.unlinked nested happens resolve bag session).session) = x := by
    cases x with
    | error e => rfl
    | ok html => exact hLink html
  have hSame := @Rendering.statements_eq_unlinked nested happens resolve [] r session
  have hRendered : renderComponent nested resolve k bag session =
      ((k.unlinked nested happens resolve bag session).result.map (substitute bag),
        (k.unlinked nested happens resolve bag session).session) :=
    calc
      _ = ((Rendering.statements nested resolve [] r session).1.map (substitute bag),
          (Rendering.statements nested resolve [] r session).2.2) := rfl
      _ = _ := by
        rw [congrArg Prod.fst hSame, congrArg Prod.snd hSame]
        exact congrArg (·.map (substitute bag), _) (hLinked _)
  rw [hRendered]
  exact ⟨rfl, hServed.map _⟩

/-- That a component is invoked changes nothing that the page lists. -/
theorem invoked_accounts {k : Component} {bag : Bag} {levels : Nat} (hKeeps : session.Keeps past)
    (hSound : Event.Sound resolve (.invoked levels k bag session)) :
    Accounts resolve past [.invoked levels k bag session] session (.ok (), session) where
  grows := .refl session
  keeps := by
    refine ⟨hKeeps.paged, ?_, hKeeps.housed⟩
    intro kind
    have hNone : registeredPaths kind [.invoked levels k bag session] = [] := rfl
    rw [registeredPaths_append, hNone, List.append_nil]
    exact hKeeps.listed kind
  sound event hMem := by
    cases List.mem_singleton.mp hMem
    exact hSound
  clean := trivial

/-- A task accounts for what happens in it if its own tasks do. -/
theorem task_accounts {levels : Nat}
    (hNested : Told resolve (nestedWithin resolve levels) (eventsWithin resolve levels))
    {task : Task} (hKeeps : session.Keeps past) (hHolds : session.Holds context.scopes)
    (hFits : task.Fits session) :
    Accounts resolve past (task.events resolve levels (eventsWithin resolve levels) context session)
      session (task.render (nestedWithin resolve levels) resolve context session) := by
  cases task with
  | component k bag =>
      obtain ⟨hSame, hDone⟩ := component_accounts hNested bag hKeeps hFits
      have hSound : Event.Sound resolve (.invoked levels k bag session) :=
        ⟨hSame, fun e hError => hDone.clean.not_isMissingHead hError⟩
      have hInvoked := invoked_accounts hKeeps hSound
      exact hInvoked.append (component_accounts hNested bag hInvoked.keeps hFits).2
  | content tokens => exact (body_accounts hNested tokens hKeeps hHolds).map _
  | block source => exact block_accounts hNested source hKeeps hHolds
  | loop head source => exact loop_accounts hNested head source hKeeps hHolds

/-- All work accounts for what happens in it. -/
theorem told_within (resolve : Resolver) (levels : Nat) :
    Told resolve (nestedWithin resolve levels) (eventsWithin resolve levels) := by
  induction levels with
  | zero => exact fun past context task token session hKeeps _ _ => .nothing hKeeps id
  | succ levels ih =>
      -- what a task hands out has one level less, so that the account of it is at hand
      intro past context task token session hKeeps hHolds hFits
      have hEntered := session.opens_enter.grows
      have hDone := task_accounts ih hKeeps.enter (hHolds.grows hEntered) (hFits.grows hEntered)
      exact .opened hEntered hDone.left

end

end HtmlTemplate
