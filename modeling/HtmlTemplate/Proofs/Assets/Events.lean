import HtmlTemplate.Proofs.Render.Templates

/-! What happens in the course of rendering, in order. A page says by its text what has
been served, but not which files have been registered on the way nor which components
have been invoked. The functions here follow those of the renderer one by one, take every
session and every outcome from them and tell what happens between. -/
namespace HtmlTemplate

/-- Something that happens in the course of rendering: a file is registered, or a component
is invoked with a number of levels left for the work in it. -/
inductive Event where
  | registered (kind : AssetKind) (path : String)
  | invoked (levels : Nat) (component : Component) (bag : Bag) (session : Session)

/-- What happens while work is done. -/
abbrev NestedEvents :=
  Context → Task → Token → Session → List Event

/-- The file that is registered if it is one of a kind. -/
def Event.path? (kind : AssetKind) : Event → Option String
  | .registered other path => if other = kind then some path else none
  | .invoked .. => none

/-- The files of a kind that are registered, each as often as that happens. -/
def registeredPaths (kind : AssetKind) (events : List Event) : List String :=
  events.filterMap (Event.path? kind)

theorem Event.path?_eq_some {kind : AssetKind} {path : String} {event : Event} :
    event.path? kind = some path ↔ event = .registered kind path := by
  cases event with
  | registered other found =>
      simp only [Event.path?, Option.ite_none_right_eq_some, Option.some.injEq,
        Event.registered.injEq]
  | invoked => exact ⟨nofun, nofun⟩

theorem mem_registeredPaths {kind : AssetKind} {path : String} {events : List Event} :
    path ∈ registeredPaths kind events ↔ .registered kind path ∈ events := by
  simp only [registeredPaths, List.mem_filterMap, Event.path?_eq_some, exists_eq_right]

theorem registeredPaths_append (kind : AssetKind) (past events : List Event) :
    registeredPaths kind (past ++ events) =
      registeredPaths kind past ++ registeredPaths kind events :=
  List.filterMap_append

/-- Setup statements register files and do nothing else that matters here. -/
def Setup.events : Setup → List Event
  | .linkAsset kind path => [.registered kind path]
  | _ => []

/-- What happens while an action is performed. -/
def Action.events (nested : Nested) (happens : NestedEvents) (context : Context)
    (session : Session) : Action → List Event
  | .run task token => happens context task token session
  | .wrap component attributes content token =>
    happens context (.content content) token session ++
      match nested context (.content content) token session with
      | (.error _, _) => []
      | (.ok slot, session) =>
        happens context (.component component (wrapBag attributes context.bag slot)) token session
  | _ => []

namespace Rendering

variable (nested : Nested) (happens : NestedEvents) (resolve : Resolver)

/-- What happens on the walk through markup. -/
def walkEvents (serve : Bool) (r : Rendering) (session : Session) : List Event :=
  match _rest : r.rest with
  | [] => []
  | token :: rest =>
    match token.kind.misplaced? with
    | some _ => []
    | none =>
      let stepped := step { r with rest } session serve token
      let done := stepped.1.perform nested r.context session
      stepped.1.events nested happens r.context session ++
        match done.1 with
        | .error _ => []
        | .ok _ => if stepped.1.isClose then [] else walkEvents serve stepped.2 done.2
termination_by r.rest.length
decreasing_by
  have shorter := (step_rest_suffix { r with rest } session serve token).length_le
  simp only [_rest, List.length_cons] at shorter ⊢
  omega

/-- What happens in the body of `serve`. -/
def serveEvents (r : Rendering) (session : Session) : List Event :=
  match r.openServe.1 with
  | .ok _ => walkEvents nested happens true r.openServe.2.enter session
  | .error _ => []

/-- What happens in a setup statement. -/
def setupEvents (reader : Reading Setup) (r : Rendering) : List Event :=
  match (r.read reader).1 with
  | .ok statement => statement.events
  | .error _ => []

end Rendering

/-- What comes of the statements of a template before anything is linked: the text that is
served or why there is none, the session behind it and what has happened. -/
structure Served where
  result : Except RenderError (List Char)
  session : Session
  events : List Event

/-- The same with something that has happened before. -/
def Served.behind (events : List Event) (served : Served) : Served :=
  { served with events := events ++ served.events }

namespace Rendering

variable (nested : Nested) (happens : NestedEvents) (resolve : Resolver)

/-- Renders the statements of a template that are left, and links nothing. -/
def unlinked (html : List Char) (r : Rendering) (session : Session) : Served :=
  match _rest : r.rest with
  | [] => ⟨.ok html, session, []⟩
  | token :: rest =>
    match token.kind with
    | .blank => unlinked html { r with rest } session
    | .keyword .serve =>
      let served := serve nested { r with rest } session
      let happened := serveEvents nested happens { r with rest } session
      match served.1 with
      | .ok text => (unlinked (html ++ text) served.2.1 served.2.2).behind happened
      | .error e => ⟨.error e, served.2.2, happened⟩
    | .keyword keyword =>
      match Setup.reader? r.endLocation keyword with
      | some reader =>
        let done := setup resolve reader { r with rest } session
        let happened := setupEvents reader { r with rest }
        match done.1 with
        | .ok _ => (unlinked html done.2.1 done.2.2).behind happened
        | .error e => ⟨.error e, done.2.2, happened⟩
      | none => ⟨.error (.atToken (.setupKeyword (some keyword)) token), session, []⟩
    | _ => ⟨.error (.atToken (.setupKeyword none) token), session, []⟩
termination_by r.rest.length
decreasing_by
  · simp [_rest]
  · have shorter := (serve_rest_suffix nested { r with rest } session).length_le
    simp only [_rest, List.length_cons] at shorter ⊢
    omega
  · have shorter := (setup_rest_suffix resolve reader { r with rest } session).length_le
    simp only [_rest, List.length_cons] at shorter ⊢
    omega

end Rendering

section

variable (nested : Nested) (happens : NestedEvents) (resolve : Resolver)

/-- What happens in markup that is rendered from the first token to the last. -/
def bodyEvents (tokens : List Token) (context : Context) (session : Session) : List Event :=
  Rendering.walkEvents nested happens false (Rendering.start tokens context).enter session

/-- What happens in the block of a loop that is rendered anew for each item. -/
def itemsEvents (tokens : List Token) (context : Context) (binding : String) :
    (index : Nat) → List Data → Session → List Event
  | _, [], _ => []
  | index, item :: rest, session =>
    let turn := { context with bag := context.bag.forItem binding item index }
    bodyEvents nested happens tokens turn session ++
      match renderBody nested tokens turn session with
      | (.error _, _) => []
      | (.ok _, session) => itemsEvents tokens context binding (index + 1) rest session

/-- What happens in a loop. -/
def loopEvents (context : Context) (head : LoopHead) (source : String) (session : Session) :
    List Event :=
  match Token.scanMarkup source context.file with
  | .error _ => []
  | .ok tokens =>
    let (session, scopes) := session.blockScopes context.scopes
    let context := { context with scopes }
    if tokens.any (Token.isDynamic session scopes) then
      itemsEvents nested happens tokens context head.binding 0 head.items session
    else bodyEvents nested happens tokens context session

/-- What happens in the block of a branch. -/
def blockEvents (context : Context) (source : String) (session : Session) : List Event :=
  match Token.scanMarkup source context.file with
  | .error _ => []
  | .ok tokens =>
    let (session, scopes) := session.blockScopes context.scopes
    bodyEvents nested happens tokens { context with scopes } session

/-- What comes of the statements of a component under some parameters. -/
def Component.unlinked (k : Component) (bag : Bag) (session : Session) : Served :=
  (Rendering.start k.tokens ⟨bag, k.scopes, k.file⟩).unlinked nested happens resolve [] session

end

/-- What happens in a task whose own tasks have a number of levels left. -/
def Task.events (resolve : Resolver) (levels : Nat) (happens : NestedEvents) (context : Context)
    (session : Session) : Task → List Event
  | .component k bag =>
    .invoked levels k bag session ::
      (k.unlinked (nestedWithin resolve levels) happens resolve bag session).events
  | .content tokens => bodyEvents (nestedWithin resolve levels) happens tokens context session
  | .block source => blockEvents (nestedWithin resolve levels) happens context source session
  | .loop head source =>
    loopEvents (nestedWithin resolve levels) happens context head source session

/-- What happens in tasks with a number of levels left for them. -/
def eventsWithin (resolve : Resolver) : (levels : Nat) → NestedEvents
  | 0, _, _, _, _ => []
  | levels + 1, context, task, _, session =>
    task.events resolve levels (eventsWithin resolve levels) context session.enter

namespace Rendering

variable {nested : Nested} {happens : NestedEvents} {resolve : Resolver}

/-- Linking asks for nothing but the context. -/
theorem link_congr {r other : Rendering} (h : r.context = other.context) : r.link = other.link := by
  unfold link
  rw [h]

/-- Reading a statement leaves the context alone. -/
theorem setup_context (resolve : Resolver) (reader : Reading Setup) (r : Rendering)
    (session : Session) : (setup resolve reader r session).2.1.context = r.context := by
  unfold setup
  dsimp only
  split <;> rfl

/-- Rendering a template is rendering it without links and linking then. -/
theorem statements_eq_unlinked (html : List Char) (r : Rendering) (session : Session) :
    ((statements nested resolve html r session).1, (statements nested resolve html r session).2.2) =
      ((unlinked nested happens resolve html r session).result >>=
          r.link (unlinked nested happens resolve html r session).session,
        (unlinked nested happens resolve html r session).session) := by
  fun_induction unlinked nested happens resolve html r session with
  | case1 html r session hRest =>
      rw [statements_nil hRest]
      rfl
  | case2 html r session token rest hRest hBlank ih =>
      rw [statements_blank hRest hBlank]
      exact ih
  | case3 html r session token rest hRest hServe served happened text hText ih =>
      have hServed : serve nested (r.moveTo rest) session = (.ok text, served.2) :=
        Prod.ext hText rfl
      have hLink : served.2.1.link = r.link :=
        link_congr (serve_context nested (r.moveTo rest) session)
      rw [hLink] at ih
      rw [statements_serve hRest hServe, hServed]
      exact ih
  | case4 html r session token rest hRest hServe served happened e hError =>
      have hServed : serve nested (r.moveTo rest) session = (.error e, served.2) :=
        Prod.ext hError rfl
      rw [statements_serve hRest hServe, hServed]
      rfl
  | case5 html r session token rest hRest keyword _ hKind reader hReader done happened value hDone
      ih =>
      have hSetup : setup resolve reader (r.moveTo rest) session = (.ok value, done.2) :=
        Prod.ext hDone rfl
      have hLink : done.2.1.link = r.link :=
        link_congr (setup_context resolve reader (r.moveTo rest) session)
      rw [hLink] at ih
      rw [statements_setup hRest hKind hReader, hSetup]
      exact ih
  | case6 html r session token rest hRest keyword _ hKind reader hReader done happened e hError =>
      have hSetup : setup resolve reader (r.moveTo rest) session = (.error e, done.2) :=
        Prod.ext hError rfl
      rw [statements_setup hRest hKind hReader, hSetup]
      rfl
  | case7 html r session token rest hRest keyword hServe hKind hNone =>
      have hSetup (other : Keyword) (h : token.kind = .keyword other) :
          Setup.reader? r.endLocation other = none := by
        cases hKind.symm.trans h
        exact hNone
      have hNotServe : token.kind ≠ .keyword .serve := by simpa [hKind] using hServe
      rw [statements_misplaced hRest (by simp [hKind]) hNotServe hSetup, hKind]
      rfl
  | case8 html r session token rest hRest hBlank hServe hKeyword =>
      rw [statements_misplaced hRest hBlank hServe fun keyword h => absurd h (hKeyword keyword)]
      cases hKind : token.kind with
      | keyword keyword => exact absurd hKind (hKeyword keyword)
      | _ => rfl

end Rendering

end HtmlTemplate
