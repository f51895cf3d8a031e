import HtmlTemplate.Proofs.Render.Termination

/-! The depth counter is exact. Whatever is done with a template, in whatever session, the session
is as deep behind it as before; and in the meantime it is as deep as the levels say that have
been entered, and never deeper than its limit. -/
namespace HtmlTemplate

/-- What can be done with a template: it is rendered as it is, its markup alone is, it is rendered
as a document, or it is rendered anew with other parameters. -/
inductive Operation where
  | template
  | body
  | document
  | update (bag : Bag)

namespace Operation

/-- Does something with a template, and all work in it by `nested`. -/
def performBy (nested : Nested) (resolve : Resolver) (r : Rendering) (session : Session) :
    Operation → Except RenderError (List Char) × Rendering × Session
  | template => r.template nested resolve session
  | body => r.body nested session
  | document => r.document nested resolve session
  | update bag => r.update nested resolve bag session

/-- Does something with a template in a session. -/
def perform (resolve : Resolver) (r : Rendering) (session : Session) (operation : Operation) :
    Except RenderError (List Char) × Rendering × Session :=
  operation.performBy (session.nested resolve) resolve r session

/-- The activity that an operation begins with. -/
def activity (r : Rendering) (session : Session) : Operation → Activity
  | template | document => .statements [] r session
  | body => .walk false r.enter session
  | update bag => .statements [] (Rendering.start r.tokens { r.context with bag }) session

theorem activity_session (operation : Operation) (r : Rendering) (session : Session) :
    (operation.activity r session).session = session := by
  cases operation <;> rfl

/-- The text of a template as an operation gives it. -/
def finish (r : Rendering) : Operation → List Char → List Char
  | template | body => id
  | document => fun html => unshield (substitute r.context.bag html)
  | update bag => substitute bag

/-- An operation is its activity, and then its text is finished. -/
theorem performBy_eq_outcome (nested : Nested) (resolve : Resolver) (operation : Operation)
    (r : Rendering) (session : Session) :
    Outcome.ofReading (operation.performBy nested resolve r session) =
      let done := (operation.activity r session).outcomeBy nested resolve
      { done with result := done.result.map (operation.finish r) } := by
  have hSame (result : Except RenderError (List Char)) : result = result.map id := by
    cases result <;> rfl
  cases operation with
  | template | body => exact congrArg (Outcome.mk · _ _) (hSame _)
  | document | update bag => rfl

theorem gauge_perform (resolve : Resolver) (operation : Operation) (r : Rendering)
    (session : Session) : (operation.perform resolve r session).2.2.gauge = session.gauge := by
  have hStart := operation.activity_session r session
  have hDone := performBy_eq_outcome (session.nested resolve) resolve operation r session
  have hGauge := (operation.activity r session).gauge_outcome resolve
  unfold Activity.outcome at hGauge
  rw [hStart] at hGauge
  exact (congrArg (Session.gauge ∘ Outcome.session) hDone).trans hGauge

/-- The depth counter is exact on every path. An operation leaves the session as deep as it was,
whether it succeeds or fails. Every activity that it leads to finds the session as deep as the
levels on the way say, within the limit, and leaves it so. No work is done elsewhere: one who
does that work as it is done does the whole operation as it is done. -/
theorem depth_exact (resolve : Resolver) (operation : Operation) (r : Rendering)
    {session : Session} (hDepth : session.depth ≤ session.maxDepth) :
    (operation.perform resolve r session).2.2.depth = session.depth ∧
    (operation.perform resolve r session).2.2.maxDepth = session.maxDepth ∧
    (∀ levels a, (operation.activity r session).Leads resolve levels a →
      a.session.depth = session.depth + levels ∧ a.session.depth ≤ session.maxDepth ∧
      (a.outcome resolve).session.depth = a.session.depth) ∧
    ∀ nested : Nested,
      (∀ levels context task token middle,
        (operation.activity r session).Leads resolve levels (.work context task token middle) →
        nested context task token middle = middle.nested resolve context task token middle) →
      operation.performBy nested resolve r session = operation.perform resolve r session := by
  have hStart := operation.activity_session r session
  obtain ⟨hSame, hLimit⟩ := Prod.mk.inj (operation.gauge_perform resolve r session)
  refine ⟨hSame, hLimit, ?_, ?_⟩
  · intro levels a hLeads
    obtain ⟨hCounted, hKept, hWithin⟩ := hLeads.depth_eq (by rwa [hStart])
    rw [hStart] at hCounted hKept
    exact ⟨hCounted, hKept ▸ hWithin, congrArg Prod.fst (a.gauge_outcome resolve)⟩
  · intro nested hWork
    have hSame : (operation.activity r session).outcomeBy nested resolve =
        (operation.activity r session).outcome resolve := by
      apply Activity.outcomeBy_eq_outcome fun a =>
        ∃ levels, (operation.activity r session).Leads resolve levels a
      · rintro a b ⟨levels, hLeads⟩ hAsks
        exact ⟨_, hLeads.step hAsks⟩
      · rintro context task token middle ⟨levels, hLeads⟩ _
        exact hWork levels context task token middle hLeads
      · exact ⟨0, .refl⟩
    unfold Activity.outcome at hSame
    rw [hStart] at hSame
    apply Outcome.ofReading_inj.mp
    rw [perform, performBy_eq_outcome, performBy_eq_outcome, hSame]

end Operation

/-- A component whose content asks for the component. -/
def endlessText : String :=
  "as Self import 'self' serve (<p><Self><Self /></Self></p>)"

/-- Such a component as a page, three levels below the first of five. -/
def endlessPage : Rendering × Session :=
  let (session, scopes) := (Session.start 5).enter.enter.enter.pageScopes
  (Rendering.start ((Token.scanTemplate endlessText "self").toOption.getD [])
    ⟨[], scopes, "self"⟩, session)

/-- The page is given up where the component in its content has content, and the session is then
where it was. -/
theorem Operation.depth_exact_of_endless :
    endlessPage.2.depth ≤ endlessPage.2.maxDepth ∧
    ((update []).perform (fun _ path => .ok ⟨path, endlessText⟩) endlessPage.1
      endlessPage.2).1.toOption = none ∧
    ((update []).perform (fun _ path => .ok ⟨path, endlessText⟩) endlessPage.1
      endlessPage.2).2.2.depth = 3 :=
  have hDepth : endlessPage.2.depth ≤ endlessPage.2.maxDepth := by decide +kernel
  ⟨hDepth, by decide +kernel, (depth_exact _ (update []) endlessPage.1 hDepth).1⟩

end HtmlTemplate
