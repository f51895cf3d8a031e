import HtmlTemplate.Render.Step
/-!
Rendering markup to its end. Work that an action hands out is done by `nested`,
whatever that is: how deep such work may go is settled where `nested` is built, in
`Render.Page`. What has been read stays read and what has been defined stays
defined when rendering fails.
-/
namespace HtmlTemplate

/-- How work is rendered that a token asks for. -/
abbrev Nested :=
  Context → Task → Token → Session → Except RenderError (List Char) × Session

/-- The parameters of a component with content: its attributes, the rendered
content as `slot`, and the parameters of its user, which win over both. -/
def wrapBag (attributes user : Bag) (slot : List Char) : Bag :=
  (attributes.insert "slot" (.ofChars slot)).extend user

/-- Whether an action ends the body. -/
def Action.isClose : Action → Bool
  | .close => true
  | _ => false

/-- Does what a token asks for, and gives the text it contributes. -/
def Action.perform (nested : Nested) (context : Context) (session : Session) :
    Action → Except RenderError (List Char) × Session
  | .emit text => (.ok text, session)
  | .run task token => nested context task token session
  | .wrap component attributes content token =>
    match nested context (.content content) token session with
    | (.error e, session) => (.error e, session)
    | (.ok slot, session) =>
      nested context (.component component (wrapBag attributes context.bag slot)) token session
  | .close => (.ok [], session)
  | .fail e => (.error e, session)

namespace Rendering

/-- The end of the tokens, where no element may be open. Open parentheses are text,
but for that of `serve`. -/
def finish (r : Rendering) (serve : Bool) : Except RenderError Unit × Rendering :=
  match r.opened.dropWhile Pending.isParen with
  | p :: below =>
    (.error (.template (.unclosed p.opener) p.token.location), { r with opened := below })
  | [] =>
    match serve, r.outer with
    | true, p :: below =>
      (.error (.template .unclosedServe p.token.location), { r with opened := [], outer := below })
    | _, _ => (.ok (), { r with opened := [] })

/-- Renders markup up to the end of the tokens or to the parenthesis that closes
`serve`. -/
def walk (nested : Nested) (serve : Bool) (r : Rendering) (session : Session) :
    Except RenderError (List Char) × Rendering × Session :=
  match _rest : r.rest with
  | [] =>
    let ended := r.finish serve
    (ended.1.map fun _ => [], ended.2, session)
  | token :: rest =>
    match token.kind.misplaced? with
    | some expectation => (.error (.atToken expectation token), r, session)
    | none =>
      let stepped := step { r with rest } session serve token
      let done := stepped.1.perform nested r.context session
      match done.1 with
      | .error e => (.error e, stepped.2, done.2)
      | .ok text =>
        if stepped.1.isClose then (.ok text, stepped.2, done.2)
        else
          let later := walk nested serve stepped.2 done.2
          (later.1.map (text ++ ·), later.2)
termination_by r.rest.length
decreasing_by
  have shorter := (step_rest_suffix { r with rest } session serve token).length_le
  simp only [_rest, List.length_cons] at shorter ⊢
  omega

theorem finish_rest (r : Rendering) (serve : Bool) :
    (r.finish serve).2.rest = r.rest := by
  unfold finish
  split
  · rfl
  · split <;> rfl

/-- Rendering markup only moves forward. -/
theorem walk_rest_suffix (nested : Nested) (serve : Bool) (r : Rendering)
    (session : Session) : (walk nested serve r session).2.1.rest <:+ r.rest := by
  fun_induction walk nested serve r session with
  | case1 r => exact finish_rest r serve ▸ List.suffix_refl _
  | case2 => exact List.suffix_refl _
  | case3 r session token rest found _ stepped =>
    exact found ▸ (step_rest_suffix { r with rest } session serve token).trans
      (List.suffix_cons token rest)
  | case4 r session token rest found _ stepped =>
    exact found ▸ (step_rest_suffix { r with rest } session serve token).trans
      (List.suffix_cons token rest)
  | case5 r session token rest found _ stepped _ _ _ _ _ ih =>
    exact found ▸ (ih.trans (step_rest_suffix { r with rest } session serve token)).trans
      (List.suffix_cons token rest)

/-- Renders all the markup that is left. -/
def body (nested : Nested) (r : Rendering) (session : Session) :
    Except RenderError (List Char) × Rendering × Session :=
  walk nested false r.enter session

end Rendering

/-- Renders the tokens of some markup from the first to the last. -/
def renderBody (nested : Nested) (tokens : List Token) (context : Context) (session : Session) :
    Except RenderError (List Char) × Session :=
  let (result, _, session) := (Rendering.start tokens context).body nested session
  (result, session)

end HtmlTemplate
