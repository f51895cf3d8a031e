import HtmlTemplate.Proofs.Render.Coupling
import HtmlTemplate.Proofs.Session.Evolution

/-! Rendering keeps sessions sound. A single rendering is compared with itself here: what
the two have in common is a sound session, and later ones have evolved from it. -/
namespace HtmlTemplate

/-- A component is its preamble, carried out, and what it serves behind that. -/
theorem renderComponent_eq_preamble (nested : Nested) (resolve : Resolver) (k : Component)
    (bag : Bag) (session : Session) :
    renderComponent nested resolve k bag session =
      match Setup.runAll resolve ⟨bag, k.scopes, k.file⟩ k.source.preamble.1 session with
      | (.error e, prepared) => (.error e, prepared)
      | (.ok _, prepared) =>
        match k.source.preamble.2 with
        | .error e => (.error e, prepared)
        | .ok served =>
          let r := (Rendering.start k.tokens ⟨bag, k.scopes, k.file⟩).moveTo served
          let walked := Rendering.statements nested resolve [] r prepared
          (walked.1.map (substitute bag), walked.2.2) := by
  let r := Rendering.start k.tokens ⟨bag, k.scopes, k.file⟩
  have hSplit := congrArg
    (fun result : Except RenderError (List Char) × Session =>
      (result.1.map (substitute bag), result.2))
    (statements_eq_preamble nested resolve [] r session)
  have hPreamble : preamble r.endLocation r.rest = k.source.preamble := rfl
  have hContext : r.context = ⟨bag, k.scopes, k.file⟩ := rfl
  rw [hPreamble, hContext] at hSplit
  refine Eq.trans hSplit ?_
  rcases Setup.runAll resolve ⟨bag, k.scopes, k.file⟩ k.source.preamble.1 session with
    ⟨result, prepared⟩
  cases result with
  | error e => rfl
  | ok _ => cases k.source.preamble.2 <;> rfl

/-- Nothing that a component serves begins a setup statement. -/
theorem reader?_of_served {k : Component} {served : List Token} (hLast : ServesLast k.tokens)
    (hServed : k.source.preamble.2 = .ok served) {t : Token} (ht : t ∈ served)
    {keyword : Keyword} (hKind : t.kind = .keyword keyword) (endAt : Location) :
    Setup.reader? endAt keyword = none := by
  obtain ⟨hSuffix, rfl | ⟨token, rest, rfl, hServe⟩⟩ := preamble_eq_ok hServed
  · cases ht
  · rcases List.mem_cons.mp ht with rfl | hRest
    · cases TokenKind.keyword.inj (hServe.symm.trans hKind)
      rfl
    · have hControl := hLast token rest hSuffix hServe t hRest keyword hKind
      cases keyword <;> first | rfl | cases hControl

namespace Lockstep

variable {L : Lockstep} {p q : Session × Session} {resolve : Resolver} {left right : Nested}
  {k l : Component} {a b : Bag}

/-- A component is rendered alike in two sessions where its preamble is carried out alike
and leads to related frames. -/
theorem renderComponent_alike_of_preamble (hNested : L.Alike left right)
    (hSource : k.source = l.source) (hLast : ServesLast k.tokens)
    (hPieces : ∀ t ∈ k.tokens, L.Piece t)
    (hPrepared : L.Outcome p (fun _ => True)
      (Setup.runAll resolve ⟨a, k.scopes, k.file⟩ k.source.preamble.1 p.1)
      (Setup.runAll resolve ⟨b, l.scopes, l.file⟩ l.source.preamble.1 p.2))
    (hReady : ∀ session other,
      Setup.runAll resolve ⟨a, k.scopes, k.file⟩ k.source.preamble.1 p.1 = (.ok (), session) →
      Setup.runAll resolve ⟨b, l.scopes, l.file⟩ l.source.preamble.1 p.2 = (.ok (), other) →
      L.Contexts (session, other) ⟨a, k.scopes, k.file⟩ ⟨b, l.scopes, l.file⟩)
    (hLinks : L.LinksAlike p ⟨a, k.scopes, k.file⟩ ⟨b, l.scopes, l.file⟩) :
    L.Outcome p L.Text (renderComponent left resolve k a p.1)
      (renderComponent right resolve l b p.2) := by
  have hTokens : k.tokens = l.tokens := congrArg Imported.tokens hSource
  have hFile : k.file = l.file := congrArg Imported.file hSource
  rw [renderComponent_eq_preamble, renderComponent_eq_preamble]
  revert hPrepared hReady
  generalize Setup.runAll resolve ⟨a, k.scopes, k.file⟩ k.source.preamble.1 p.1 = first
  generalize Setup.runAll resolve ⟨b, l.scopes, l.file⟩ l.source.preamble.1 p.2 = second
  intro hPrepared hReady
  cases hPrepared with
  | cut hCut => exact .cut hCut
  | error hSessions hLater => exact .error hSessions hLater
  | @ok _ session other _ hSessions hLater =>
      rw [← hSource]
      cases hServed : k.source.preamble.2 with
      | error e => exact .error hSessions hLater
      | ok served =>
          have hSuffix := (preamble_eq_ok hServed).1
          have hContexts := hReady session other rfl rfl
          have hTemplates : L.TemplatesAlike resolve (session, other) ⟨b, l.scopes, l.file⟩
              ((Rendering.start k.tokens ⟨a, k.scopes, k.file⟩).moveTo served) := by
            refine ⟨?_, fun t ht => hPieces t (hSuffix.subset ht), hContexts, hLinks.later hLater⟩
            -- what is left has no setup statements
            intro t ht _ _ _ keyword endAt _ _ _ _ _ _ hKind hReader
            cases (reader?_of_served hLast hServed ht hKind endAt).symm.trans hReader
          have hWalked := statements_alike hNested hSessions hTemplates L.text_nil
          have hBags := L.bags_of_contexts hContexts
          have hFill (text : List Char) (hText : L.Text text) :=
            And.intro (L.substitute_eq hBags hText) (L.text_substitute hBags hText)
          have hOutcome := hWalked.outcome.map hFill
          rw [← Rendering.withContext_moveTo, Rendering.start_withContext _ _ _ hFile,
            hTokens] at hOutcome
          rw [hTokens]
          exact hOutcome.earlier hLater

end Lockstep

/-- A rendering beside itself, in a session that is sound and evolves. -/
def soundCoupling (resolve : Resolver) : Coupling where
  Sessions p := p.1 = p.2 ∧ p.1.Sound resolve
  Later p q := p.1.Evolves resolve q.1
  Contexts _ c d := c = d
  Components p k l := k = l ∧ p.1.Knows k
  Cut _ := False
  later_refl p := .refl resolve p.1
  later_trans h hNext := h.trans hNext
  contexts_later _ h := h
  components_later hLater h := ⟨h.1, hLater.toGrows.knows h.2⟩
  file_eq h := congrArg Context.file h
  bag_eq h := congrArg Context.bag h
  contexts_withBag h := Context.withBag_congr h
  function?_eq := by
    rintro ⟨session, _⟩ c _ ⟨hSame, _⟩ rfl
    cases hSame
    rfl
  components_found := by
    rintro ⟨session, _⟩ c _ ⟨hSame, _⟩ rfl name
    cases hSame
    dsimp only
    cases hFound : session.component? c.scopes name with
    | none => exact .none
    | some k =>
        obtain ⟨holder, hBound⟩ := session.components.exists_of_lookup? hFound
        exact .some ⟨rfl, holder, name, hBound⟩
  blocks := by
    rintro ⟨session, _⟩ c _ ⟨hSame, hSound⟩ rfl
    cases hSame
    have hOpens := session.opens_blockScopes c.scopes
    exact ⟨⟨rfl, hSound.opens hOpens⟩, hOpens.evolves resolve, rfl⟩
  enter := by
    rintro ⟨session, _⟩ ⟨hSame, hSound⟩
    cases hSame
    exact ⟨⟨rfl, hSound.opens session.opens_enter⟩, session.opens_enter.evolves resolve⟩
  leave := by
    rintro ⟨session, _⟩ ⟨hSame, hSound⟩
    cases hSame
    exact ⟨⟨rfl, hSound.opens session.opens_leave⟩, session.opens_leave.evolves resolve⟩

section

variable {resolve : Resolver} {session : Session}

theorem sound_nested_alike (levels : Nat) :
    (soundCoupling resolve).lockstep.Alike (nestedWithin resolve levels)
      (nestedWithin resolve levels) := by
  apply Lockstep.nestedWithin_alike 0
  · rintro ⟨session, _⟩ c d task other token ⟨hSame, hSound⟩ _ _
    cases hSame
    exact .error ⟨rfl, hSound⟩ (.refl resolve session)
  · rintro left right hNested ⟨session, _⟩ k _ a _ ⟨hSame, hSound⟩ ⟨rfl, hKnows⟩ rfl
    cases hSame
    have hOwns := hSound.owns hKnows
    have hCarried := Session.preamble_carried (c := ⟨a, k.scopes, k.file⟩) hSound hOwns rfl rfl
    have hEvolves := hCarried.evolves hOwns
    have hAfter := hCarried.sound
    apply Lockstep.renderComponent_alike_of_preamble hNested rfl
      (hSound.canonical k hKnows).servesLast (fun _ _ => trivial)
    · revert hEvolves hAfter
      generalize Setup.runAll resolve ⟨a, k.scopes, k.file⟩ k.source.preamble.1 session = prepared
      intro hEvolves hAfter
      obtain ⟨result, after⟩ := prepared
      cases result with
      | error e => exact .error ⟨rfl, hAfter⟩ hEvolves
      | ok _ => exact .ok trivial ⟨rfl, hAfter⟩ hEvolves
    · intro _ _ _ _
      rfl
    · rintro ⟨later, _⟩ html r hContext _ ⟨hSame, _⟩ _
      cases hSame
      rw [← hContext]
      exact ⟨rfl, fun _ _ => trivial⟩

/-- What an outcome of the rendering says of the session it leaves. -/
theorem Lockstep.Outcome.sound {α : Type} {Good : α → Prop}
    {left right : Except RenderError α × Session}
    (h : (soundCoupling resolve).lockstep.Outcome (session, session) Good left right) :
    left.2.Sound resolve ∧ session.Evolves resolve left.2 := by
  cases h with
  | cut hCut => exact hCut.elim
  | error hSessions hLater => exact ⟨hSessions.2, hLater⟩
  | ok _ hSessions hLater => exact ⟨hSessions.2, hLater⟩

/-- Walking over any markup keeps a session sound. -/
theorem walk_sound (hSound : session.Sound resolve) (levels : Nat) (serve : Bool)
    (r : Rendering) :
    (Rendering.walk (nestedWithin resolve levels) serve r session).2.2.Sound resolve ∧
    session.Evolves resolve (Rendering.walk (nestedWithin resolve levels) serve r session).2.2 := by
  have hWalked := Lockstep.walk_alike (sound_nested_alike levels) serve (p := (session, session))
    (r := r) (d := r.context) ⟨rfl, hSound⟩ rfl (fun _ _ => trivial)
  exact hWalked.outcome.sound

/-- So does what `serve` renders. -/
theorem serve_sound (hSound : session.Sound resolve) (levels : Nat) (r : Rendering) :
    (Rendering.serve (nestedWithin resolve levels) r session).2.2.Sound resolve ∧
    session.Evolves resolve (Rendering.serve (nestedWithin resolve levels) r session).2.2 := by
  have hWalked := Lockstep.serve_alike (sound_nested_alike levels) (p := (session, session))
    (r := r) (d := r.context) ⟨rfl, hSound⟩ rfl (fun _ _ => trivial)
  exact hWalked.outcome.sound

/-- The components that a task names are components of the session. -/
def Task.OfSession (session : Session) : Task → Prop
  | .component k _ => session.Knows k
  | _ => True

/-- And so does work of any kind. -/
theorem work_sound (hSound : session.Sound resolve) (levels : Nat) (context : Context)
    {task : Task} (hTask : task.OfSession session) (token : Token) :
    (nestedWithin resolve levels context task token session).2.Sound resolve ∧
    session.Evolves resolve (nestedWithin resolve levels context task token session).2 := by
  have hTasks : (soundCoupling resolve).lockstep.Tasks (session, session) task task := by
    cases task with
    | component k bag => exact .component ⟨rfl, hTask⟩ rfl
    | content tokens => exact .content fun _ _ => trivial
    | block source => exact .block (t := ⟨.block, source, ⟨0, 0, 0, 0⟩, ""⟩) trivial rfl
    | loop head source => exact .loop (t := ⟨.block, source, ⟨0, 0, 0, 0⟩, ""⟩) trivial trivial rfl
  exact (sound_nested_alike levels token ⟨rfl, hSound⟩ rfl hTasks).sound

end

end HtmlTemplate
