import HtmlTemplate.Proofs.Session.Rendering

/-! Histories of sessions: the pages that are opened in a session and all that is done
with them, in any order and to whatever end. What they leave is sound. -/
namespace HtmlTemplate

namespace Session

variable {resolve : Resolver} {session after : Session} {scopes : Scopes}

/-- Open frames that belong to no component. -/
structure Page (session : Session) (scopes : Scopes) : Prop where
  holds : session.Holds scopes
  apart : ∀ k, session.Knows k →
    k.scopes.components ≠ scopes.components ∧ k.scopes.functions ≠ scopes.functions

theorem Page.grows (h : session.Page scopes) (hGrows : session.Grows after) :
    after.Page scopes where
  holds := h.holds.grows hGrows
  apart k hKnows := by
    rcases hGrows.fresh k hKnows with hKnown | ⟨hComponents, hFunctions⟩
    · exact h.apart k hKnown
    · exact ⟨Nat.ne_of_gt (Nat.lt_of_lt_of_le h.holds.components hComponents),
        Nat.ne_of_gt (Nat.lt_of_lt_of_le h.holds.functions hFunctions)⟩

/-- The frames of a page that has just been opened. -/
theorem page_pageScopes (hSound : session.Sound resolve) :
    session.pageScopes.1.Page session.pageScopes.2 where
  holds := by
    constructor
    · exact (ScopeArena.lone_alloc session.components).1
    · exact (ScopeArena.lone_alloc session.stylesheets).1
    · exact (ScopeArena.lone_alloc session.scripts).1
    · exact (ScopeArena.lone_alloc session.functions).1
  apart k hKnows := by
    have hKnown := (session.opens_pageScopes.knows_iff k).mp hKnows
    have hFrames := (hSound.canonical k hKnown).holds
    exact ⟨Nat.ne_of_lt hFrames.components, Nat.ne_of_lt hFrames.functions⟩

/-- A page that has just been opened, taken for a component that nothing imports, owns its
frames. -/
theorem Sound.owns_pageScopes (hSound : session.Sound resolve) (tokens : List Token)
    (file : String) :
    session.pageScopes.1.Owns resolve ⟨"", tokens, file, session.pageScopes.2⟩ where
  holds := (page_pageScopes hSound).holds
  components := ScopeArena.lone_alloc session.components
  functions := ScopeArena.lone_alloc session.functions
  alone k hKnows hShared := by
    obtain ⟨hComponents, hFunctions⟩ := (page_pageScopes hSound).apart k hKnows
    rcases hShared with hEq | hEq
    · exact absurd hEq hComponents
    · exact absurd hEq hFunctions
  imported name l hBound := by
    have hOpens := session.opens_pageScopes.components
    have hEmpty := session.components.lookupLocal?_eq_none_of_le (Nat.le_refl _) name
    cases ((hOpens.lookupLocal?_eq _ name).trans hEmpty).symm.trans hBound
  declared name f hBound := by
    have hOpens := session.opens_pageScopes.functions
    have hEmpty := session.functions.lookupLocal?_eq_none_of_le (Nat.le_refl _) name
    cases ((hOpens.lookupLocal?_eq _ name).trans hEmpty).symm.trans hBound

/-- A page may set up whatever it wants in its own frames. -/
theorem Page.run_sound {c : Context} (hPage : session.Page c.scopes)
    (hSound : session.Sound resolve) (statement : Setup) :
    (statement.run resolve c session).2.Sound resolve := by
  apply hSound.run hPage.holds
  · intro f _ k hKnows hShared
    exact absurd hShared (hPage.apart k hKnows).2
  · intro _ _ _ _ _ _ _ k hKnows hShared
    exact absurd hShared (hPage.apart k hKnows).1

end Session

/-- The statements of a page keep the session sound. -/
theorem statements_sound {resolve : Resolver} {session : Session} {r : Rendering}
    (hSound : session.Sound resolve) (hPage : session.Page r.context.scopes) (levels : Nat)
    (html : List Char) :
    (Rendering.statements (nestedWithin resolve levels) resolve html r session).2.2.Sound resolve ∧
    session.Grows
      (Rendering.statements (nestedWithin resolve levels) resolve html r session).2.2 := by
  induction r using Rendering.statements_induction generalizing html session with
  | nil r hRest =>
      rw [Rendering.statements_nil hRest]
      exact ⟨hSound, .refl session⟩
  | blank r token rest hRest hBlank ih =>
      rw [Rendering.statements_blank hRest hBlank]
      exact ih hSound hPage html
  | serve r token rest hRest hServe ih =>
      rw [Rendering.statements_serve hRest hServe]
      have hServed := serve_sound hSound levels (r.moveTo rest)
      have hContext := Rendering.serve_context (nestedWithin resolve levels) (r.moveTo rest) session
      have hSuffix := Rendering.serve_rest_suffix (nestedWithin resolve levels) (r.moveTo rest)
        session
      revert hServed hContext hSuffix
      rcases Rendering.serve (nestedWithin resolve levels) (r.moveTo rest) session with
        ⟨result, place, after⟩
      rintro ⟨hAfter, hEvolves⟩ hContext hSuffix
      cases result with
      | error e => exact ⟨hAfter, hEvolves.toGrows⟩
      | ok text =>
          have hPlace : after.Page place.context.scopes := hContext ▸ hPage.grows hEvolves.toGrows
          obtain ⟨hLast, hGrows⟩ := ih place hSuffix hAfter hPlace (html ++ text)
          exact ⟨hLast, hEvolves.toGrows.trans hGrows⟩
  | setup r token rest keyword reader hRest hKind hReader ih =>
      rw [Rendering.statements_setup hRest hKind hReader]
      have hSuffix := Rendering.setup_rest_suffix resolve reader (r.moveTo rest) session
      revert hSuffix
      unfold Rendering.setup
      dsimp only
      cases ((r.moveTo rest).read reader).1 with
      | error e => exact fun _ => ⟨hSound, .refl session⟩
      | ok statement =>
          have hAfter := hPage.run_sound hSound statement
          have hGrows := (Session.writes_run resolve r.context session statement).toGrows
          have hContext : ((r.moveTo rest).read reader).2.context = r.context := rfl
          dsimp only
          rw [hContext]
          revert hAfter hGrows
          rcases statement.run resolve r.context session with ⟨result, after⟩
          intro hAfter hGrows hSuffix
          cases result with
          | error e => exact ⟨hAfter, hGrows⟩
          | ok _ =>
              obtain ⟨hLast, hMore⟩ := ih _ hSuffix hAfter (hPage.grows hGrows) html
              exact ⟨hLast, hGrows.trans hMore⟩
  | misplaced r token rest hRest hBlank hServe hOther =>
      rw [Rendering.statements_misplaced hRest hBlank hServe hOther]
      exact ⟨hSound, .refl session⟩

/-- A session, and the frames of the pages that have been opened in it. -/
structure History where
  session : Session
  pages : List Scopes

namespace History

/-- The same pages in a later session. -/
def withSession (h : History) (session : Session) : History :=
  { h with session }

/-- What may happen in a session: a page or a block is opened, a level is entered or left,
a page carries out a setup statement or renders its statements from any place in any
tokens, markup is walked over in any context, work is done there, or a component carries
out its preamble or the beginning of it. Each may fail as well as succeed, and whatever had
been done by then stays done. -/
inductive Step (resolve : Resolver) : History → History → Prop where
  | openPage (h : History) :
      Step resolve h ⟨h.session.pageScopes.1, h.session.pageScopes.2 :: h.pages⟩
  | openBlock (h : History) (outer : Scopes) :
      Step resolve h (h.withSession (h.session.blockScopes outer).1)
  | enter (h : History) : Step resolve h (h.withSession h.session.enter)
  | leave (h : History) : Step resolve h (h.withSession h.session.leave)
  | setup (h : History) (c : Context) (statement : Setup) (hPage : c.scopes ∈ h.pages) :
      Step resolve h (h.withSession (statement.run resolve c h.session).2)
  | statements (h : History) (levels : Nat) (html : List Char) (r : Rendering)
      (hPage : r.context.scopes ∈ h.pages) :
      Step resolve h (h.withSession
        (Rendering.statements (nestedWithin resolve levels) resolve html r h.session).2.2)
  | walk (h : History) (levels : Nat) (serve : Bool) (r : Rendering) :
      Step resolve h
        (h.withSession (Rendering.walk (nestedWithin resolve levels) serve r h.session).2.2)
  | work (h : History) (levels : Nat) (context : Context) (task : Task) (token : Token)
      (hTask : task.OfSession h.session) :
      Step resolve h
        (h.withSession (nestedWithin resolve levels context task token h.session).2)
  | prepare (h : History) (k : Component) (bag : Bag) (count : Nat)
      (hKnows : h.session.Knows k) :
      Step resolve h (h.withSession
        (Setup.runAll resolve ⟨bag, k.scopes, k.file⟩ (k.source.preamble.1.take count)
          h.session).2)

/-- Any number of steps. -/
inductive Leads (resolve : Resolver) : History → History → Prop where
  | refl (h : History) : Leads resolve h h
  | step {first middle last : History} (hLeads : Leads resolve first middle)
      (hStep : Step resolve middle last) : Leads resolve first last

/-- The session is sound, and all its pages are pages. -/
structure Valid (resolve : Resolver) (h : History) : Prop where
  sound : h.session.Sound resolve
  pages : ∀ scopes ∈ h.pages, h.session.Page scopes

variable {resolve : Resolver}

theorem valid_start (resolve : Resolver) (limit : Nat) :
    Valid resolve ⟨Session.start limit, []⟩ :=
  ⟨Session.sound_start resolve limit, nofun⟩

theorem Valid.withSession {h : History} (hValid : h.Valid resolve) {session : Session}
    (hNext : session.Sound resolve ∧ h.session.Grows session) :
    (h.withSession session).Valid resolve :=
  ⟨hNext.1, fun scopes hScopes => (hValid.pages scopes hScopes).grows hNext.2⟩

/-- Nothing that happens in a session makes it unsound or takes a component away. -/
theorem Step.valid {h next : History} (hStep : Step resolve h next) (hValid : h.Valid resolve) :
    next.Valid resolve ∧ h.session.Grows next.session := by
  have hOpened {session : Session} (hOpens : h.session.Opens session) :
      session.Sound resolve ∧ h.session.Grows session :=
    ⟨hValid.sound.opens hOpens, hOpens.grows⟩
  have hEvolved {session : Session}
      (hNext : session.Sound resolve ∧ h.session.Evolves resolve session) :
      session.Sound resolve ∧ h.session.Grows session :=
    ⟨hNext.1, hNext.2.toGrows⟩
  cases hStep with
  | openPage =>
      have hNext := hOpened h.session.opens_pageScopes
      refine ⟨⟨hNext.1, ?_⟩, hNext.2⟩
      intro scopes hScopes
      rcases List.mem_cons.mp hScopes with rfl | hOld
      · exact Session.page_pageScopes hValid.sound
      · exact (hValid.pages scopes hOld).grows hNext.2
  | openBlock outer =>
      have hNext := hOpened (h.session.opens_blockScopes outer)
      exact ⟨hValid.withSession hNext, hNext.2⟩
  | enter =>
      have hNext := hOpened h.session.opens_enter
      exact ⟨hValid.withSession hNext, hNext.2⟩
  | leave =>
      have hNext := hOpened h.session.opens_leave
      exact ⟨hValid.withSession hNext, hNext.2⟩
  | setup c statement hPage =>
      have hNext := And.intro ((hValid.pages _ hPage).run_sound hValid.sound statement)
        (Session.writes_run resolve c h.session statement).toGrows
      exact ⟨hValid.withSession hNext, hNext.2⟩
  | statements levels html r hPage =>
      have hNext := statements_sound hValid.sound (hValid.pages _ hPage) levels html
      exact ⟨hValid.withSession hNext, hNext.2⟩
  | walk levels serve r =>
      have hNext := hEvolved (walk_sound hValid.sound levels serve r)
      exact ⟨hValid.withSession hNext, hNext.2⟩
  | work levels context task token hTask =>
      have hNext := hEvolved (work_sound hValid.sound levels context hTask token)
      exact ⟨hValid.withSession hNext, hNext.2⟩
  | prepare k bag count hKnows =>
      have hCarried := Session.part_carried (c := ⟨bag, k.scopes, k.file⟩) hValid.sound
        (hValid.sound.owns hKnows) rfl rfl count
      have hNext := And.intro hCarried.sound hCarried.writes.toGrows
      exact ⟨hValid.withSession hNext, hNext.2⟩

theorem Leads.valid {h last : History} (hLeads : Leads resolve h last)
    (hValid : h.Valid resolve) : last.Valid resolve ∧ h.session.Grows last.session := by
  induction hLeads with
  | refl => exact ⟨hValid, .refl _⟩
  | step _ hStep ih =>
      have hNext := hStep.valid ih.1
      exact ⟨hNext.1, ih.2.trans hNext.2⟩

end History

end HtmlTemplate
