import HtmlTemplate.Render.Body
import HtmlTemplate.Render.Setup
/-!
Whole templates, and the work that is rendered one level deeper: components, the
content of their elements, and the blocks of branches and loops. Each task takes
one of a limited number of levels, so that templates which import each other come
to an end.
-/
namespace HtmlTemplate

namespace Rendering

/-- Links the assets that have been registered in the frames of a template. A
component has none there: its assets are registered at the page. -/
def link (r : Rendering) (session : Session) (html : List Char) :
    Except RenderError (List Char) :=
  let paths (arena : ScopeArena String) (scope : Nat) := (arena.entries scope).map (·.2)
  let scopes := r.context.scopes
  match linkAssets html (paths session.stylesheets scopes.stylesheets)
      (paths session.scripts scopes.scripts) with
  | .ok html => .ok html
  | .error e => .error (.runtime (.missingHead e) ⟨r.context.file, 1, 1⟩)

/-- Takes the parenthesis that opens the body of `serve`. -/
def openServe (r : Rendering) : Except RenderError Unit × Rendering :=
  match r.read (Reading.expect r.endLocation .openParen .serveParen) with
  | (.ok token, r) => (.ok (), { r with opened := ⟨.paren, token⟩ :: r.opened })
  | (.error e, r) => (.error e, r)

theorem openServe_rest_suffix (r : Rendering) : r.openServe.2.rest <:+ r.rest := by
  have moved := r.read_rest_suffix (Reading.expect r.endLocation .openParen .serveParen)
  unfold openServe
  split <;> next found => rw [found] at moved; exact moved

/-- Renders the body of `serve`. -/
def serve (nested : Nested) (r : Rendering) (session : Session) :
    Except RenderError (List Char) × Rendering × Session :=
  let opened := r.openServe
  match opened.1 with
  | .ok _ => walk nested true opened.2.enter session
  | .error e => (.error e, opened.2, session)

theorem serve_rest_suffix (nested : Nested) (r : Rendering) (session : Session) :
    (serve nested r session).2.1.rest <:+ r.rest := by
  have opened := r.openServe_rest_suffix
  unfold serve
  dsimp only
  split
  · exact (walk_rest_suffix ..).trans opened
  · exact opened

/-- Reads a setup statement and carries it out. -/
def setup (resolve : Resolver) (reader : Reading Setup) (r : Rendering) (session : Session) :
    Except RenderError Unit × Rendering × Session :=
  let found := r.read reader
  match found.1 with
  | .error e => (.error e, found.2, session)
  | .ok statement =>
    let done := statement.run resolve found.2.context session
    (done.1, found.2, done.2)

theorem setup_rest_suffix (resolve : Resolver) (reader : Reading Setup) (r : Rendering)
    (session : Session) : (setup resolve reader r session).2.1.rest <:+ r.rest := by
  have moved := r.read_rest_suffix reader
  unfold setup
  dsimp only
  split <;> exact moved

/-- Renders the statements of a template that are left; `html` is what the earlier
ones gave. -/
def statements (nested : Nested) (resolve : Resolver) (html : List Char) (r : Rendering)
    (session : Session) : Except RenderError (List Char) × Rendering × Session :=
  match _rest : r.rest with
  | [] => (r.link session html, r, session)
  | token :: rest =>
    match token.kind with
    | .blank => statements nested resolve html { r with rest } session
    | .keyword .serve =>
      let served := serve nested { r with rest } session
      match served.1 with
      | .ok text => statements nested resolve (html ++ text) served.2.1 served.2.2
      | .error e => (.error e, served.2)
    | .keyword keyword =>
      match Setup.reader? r.endLocation keyword with
      | some reader =>
        let done := setup resolve reader { r with rest } session
        match done.1 with
        | .ok _ => statements nested resolve html done.2.1 done.2.2
        | .error e => (.error e, done.2)
      | none => (.error (.atToken (.setupKeyword (some keyword)) token), r, session)
    | _ => (.error (.atToken (.setupKeyword none) token), r, session)
termination_by r.rest.length
decreasing_by
  · simp [_rest]
  · have shorter := (serve_rest_suffix nested { r with rest } session).length_le
    simp only [_rest, List.length_cons] at shorter ⊢
    omega
  · have shorter := (setup_rest_suffix resolve reader { r with rest } session).length_le
    simp only [_rest, List.length_cons] at shorter ⊢
    omega

/-- Renders the rest of a template and links its assets. -/
def template (nested : Nested) (resolve : Resolver) (r : Rendering) (session : Session) :
    Except RenderError (List Char) × Rendering × Session :=
  statements nested resolve [] r session

/-- Renders a template from its first statement on with other parameters, and puts
them in place of its references. -/
def update (nested : Nested) (resolve : Resolver) (bag : Bag) (r : Rendering)
    (session : Session) : Except RenderError (List Char) × Rendering × Session :=
  let restarted := Rendering.start r.tokens { r.context with bag }
  let rendered := restarted.template nested resolve session
  (rendered.1.map (substitute bag), rendered.2)

end Rendering

/-- Whether a token of a loop's block may mean something else for each item. -/
def Token.isDynamic (session : Session) (scopes : Scopes) (t : Token) : Bool :=
  match t.kind with
  | .keyword _ | .call => true
  | .openingTag | .selfClosingTag =>
    match t.element? with
    | some name => (session.component? scopes name).isSome
    | none => false
  | _ => false

/-- Renders the block of a loop anew for each item, from the item numbered `index`
on. -/
def renderItems (nested : Nested) (tokens : List Token) (context : Context) (binding : String) :
    (index : Nat) → List Data → Session → Except RenderError (List Char) × Session
  | _, [], session => (.ok [], session)
  | index, item :: rest, session =>
    let bag := context.bag.forItem binding item index
    match renderBody nested tokens { context with bag } session with
    | (.error e, session) => (.error e, session)
    | (.ok fragment, session) =>
      let later := renderItems nested tokens context binding (index + 1) rest session
      (later.1.map (substitute bag fragment ++ ·), later.2)

/-- Puts the parameters of each item into a fragment that is the same for all of
them. -/
def fillItems (fragment : List Char) (bag : Bag) (binding : String) (items : List Data) :
    List Char :=
  (items.zipIdx).flatMap fun (item, index) =>
    substitute (bag.forItem binding item index) fragment

/-- Renders the block of a loop for all items; only once if the items cannot
matter but by the references in it. -/
def renderLoop (nested : Nested) (context : Context) (head : LoopHead) (source : String)
    (session : Session) : Except RenderError (List Char) × Session :=
  match Token.scanMarkup source context.file with
  | .error e => (.error (.scan e), session)
  | .ok tokens =>
    let (session, scopes) := session.blockScopes context.scopes
    let context := { context with scopes }
    if tokens.any (Token.isDynamic session scopes) then
      renderItems nested tokens context head.binding 0 head.items session
    else
      let (result, session) := renderBody nested tokens context session
      (result.map fun fragment => fillItems fragment context.bag head.binding head.items, session)

/-- Renders the block of a branch. -/
def renderBlock (nested : Nested) (context : Context) (source : String) (session : Session) :
    Except RenderError (List Char) × Session :=
  match Token.scanMarkup source context.file with
  | .error e => (.error (.scan e), session)
  | .ok tokens =>
    let (session, scopes) := session.blockScopes context.scopes
    renderBody nested tokens { context with scopes } session

/-- Renders a component with its parameters. -/
def renderComponent (nested : Nested) (resolve : Resolver) (component : Component) (bag : Bag)
    (session : Session) : Except RenderError (List Char) × Session :=
  let r := Rendering.start component.tokens ⟨[], component.scopes, component.file⟩
  let (result, _, session) := r.update nested resolve bag session
  (result, session)

/-- Renders a task whose own tasks are done by `nested`. -/
def Task.render (nested : Nested) (resolve : Resolver) (context : Context) (session : Session) :
    Task → Except RenderError (List Char) × Session
  | .component c bag => renderComponent nested resolve c bag session
  | .content tokens =>
    let (result, session) := renderBody nested tokens context session
    (result.map (substitute context.bag), session)
  | .block source => renderBlock nested context source session
  | .loop head source => renderLoop nested context head source session

/-- Renders tasks with a number of levels left for them. -/
def nestedWithin (resolve : Resolver) : (levels : Nat) → Nested
  | 0, _, _, token, session =>
    (.error (.runtime (.tooDeep session.maxDepth) token.location), session)
  | levels + 1, context, task, _, session =>
    let done := task.render (nestedWithin resolve levels) resolve context session.enter
    (done.1, done.2.leave)

/-- Renders tasks with the levels that a session has left. -/
def Session.nested (session : Session) (resolve : Resolver) : Nested :=
  nestedWithin resolve (session.maxDepth - session.depth)

end HtmlTemplate
