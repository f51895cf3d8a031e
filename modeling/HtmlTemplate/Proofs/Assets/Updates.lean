import HtmlTemplate.Proofs.Assets.Page
import HtmlTemplate.Proofs.Assets.Served
import HtmlTemplate.Proofs.Render.Origin
import HtmlTemplate.Proofs.Session.Independence

/-! Pages that are rendered anew in the session they have been rendered in before. What they
serve does not depend on that, and neither do the files that are registered on the way. But
a page links all files that have been registered since its session was started. -/
namespace HtmlTemplate

/-- The files that setup statements register, up to the first that fails, where the names
`seen` have been imported before. -/
def Setup.registrations (resolve : Resolver) (file : String) :
    (seen : List String) → List Setup → List Event
  | _, [] => []
  | seen, statement :: rest =>
    statement.events ++
      match statement.outcome resolve file seen with
      | .error _ => []
      | .ok _ => registrations resolve file (statement.imports ++ seen) rest

/-- Carrying out a preamble registers its files, whatever its frames hold already. -/
theorem Session.Keeps.runAll {resolve : Resolver} {past : List Event} {session : Session}
    {k : Component} {c : Context} {seen : List String} {part behind : List Setup}
    (hKeeps : session.Keeps past) (hOwns : session.Owns resolve k) (hScopes : c.scopes = k.scopes)
    (hFile : c.file = k.file) (hProgress : session.Progress resolve k seen (part ++ behind)) :
    (Setup.runAll resolve c part session).2.Keeps
      (past ++ Setup.registrations resolve k.file seen part) := by
  induction part generalizing session past seen with
  | nil =>
      rw [Setup.registrations, List.append_nil]
      exact hKeeps
  | cons statement part ih =>
      have hOutcome := run_outcome hOwns hScopes hFile hProgress
      have hAfter := hKeeps.run (hScopes ▸ hOwns.holds) resolve statement
      have hOwned := run_owns hOwns hScopes hFile hProgress
      have hNext := run_progress (hScopes ▸ hOwns.holds.components) hScopes hProgress
      unfold Setup.runAll Setup.registrations
      rw [← hOutcome]
      revert hAfter hOwned hNext
      rcases statement.run resolve c session with ⟨result, after⟩
      intro hAfter hOwned hNext
      cases result with
      | error e =>
          rw [List.append_nil]
          exact hAfter
      | ok _ =>
          dsimp only
          rw [← List.append_assoc]
          exact ih hAfter hOwned (hNext rfl)

/-- A rendering in a session where some things have happened beside the same rendering in
one where they have not. What has happened since is the same in both. -/
def pastCoupling (resolve : Resolver) (past : List Event) : Coupling where
  Sessions p := p.1.Sound resolve ∧ p.2.Sound resolve ∧ p.1.maxDepth = p.2.maxDepth ∧
    ∃ events, p.1.Keeps (past ++ events) ∧ p.2.Keeps events
  Later p q := p.1.Advances resolve q.1 ∧ p.2.Advances resolve q.2
  Contexts := OwnedContexts resolve
  Components p k l := k.source = l.source ∧ p.1.Knows k ∧ p.2.Knows l
  Cut _ := False
  later_refl p := ⟨.refl resolve p.1, .refl resolve p.2⟩
  later_trans h hNext := ⟨h.1.trans hNext.1, h.2.trans hNext.2⟩
  contexts_later := by
    rintro p q c d ⟨hLeft, hRight⟩ ⟨hBag, hFile, k, l, hSource, hOwns, hOwns', hComplete,
      hComplete', hWithin, hWithin'⟩
    obtain ⟨hOwned, hStays⟩ := hLeft.owned k hOwns
    obtain ⟨hOwned', hStays'⟩ := hRight.owned l hOwns'
    exact ⟨hBag, hFile, k, l, hSource, hOwned, hOwned', hStays hComplete, hStays' hComplete',
      hWithin.evolves hLeft.toEvolves, hWithin'.evolves hRight.toEvolves⟩
  components_later hLater h :=
    ⟨h.1, hLater.1.toGrows.knows h.2.1, hLater.2.toGrows.knows h.2.2⟩
  file_eq h := h.file_eq
  bag_eq h := h.bag_eq
  contexts_withBag h _ := ⟨rfl, h.file_eq, h.frames⟩
  function?_eq _ h := h.function?_eq
  components_found _ h := h.components_found
  blocks := by
    rintro p c d ⟨hSound, hOther, hDepth, events, hKeeps, hKeeps'⟩ ⟨hBag, hFile, k, l, hSource,
      hOwns, hOwns', hComplete, hComplete', hWithin, hWithin'⟩
    have hOpens := p.1.opens_blockScopes c.scopes
    have hOpens' := p.2.opens_blockScopes d.scopes
    have hAdvances := hOpens.advances resolve
    have hAdvances' := hOpens'.advances resolve
    obtain ⟨hOwned, hStays⟩ := hAdvances.owned k hOwns
    obtain ⟨hOwned', hStays'⟩ := hAdvances'.owned l hOwns'
    exact ⟨⟨hSound.opens hOpens, hOther.opens hOpens', hDepth, events,
      hKeeps.blockScopes c.scopes, hKeeps'.blockScopes d.scopes⟩, ⟨hAdvances, hAdvances'⟩,
      hBag, hFile, k, l, hSource, hOwned, hOwned', hStays hComplete, hStays' hComplete',
      hWithin.blockScopes hSound hOwns, hWithin'.blockScopes hOther hOwns'⟩
  enter := by
    rintro p ⟨hSound, hOther, hDepth, events, hKeeps, hKeeps'⟩
    exact ⟨⟨hSound.opens p.1.opens_enter, hOther.opens p.2.opens_enter, hDepth, events,
      hKeeps.enter, hKeeps'.enter⟩, p.1.opens_enter.advances resolve,
      p.2.opens_enter.advances resolve⟩
  leave := by
    rintro p ⟨hSound, hOther, hDepth, events, hKeeps, hKeeps'⟩
    exact ⟨⟨hSound.opens p.1.opens_leave, hOther.opens p.2.opens_leave, hDepth, events,
      hKeeps.leave, hKeeps'.leave⟩, p.1.opens_leave.advances resolve,
      p.2.opens_leave.advances resolve⟩

section

variable {resolve : Resolver} {past : List Event} {p : Session × Session} {k l : Component}

/-- Preambles of the same source do the same in both sessions. -/
theorem past_prepared_alike (hSessions : (pastCoupling resolve past).Sessions p)
    (hSource : k.source = l.source) (hOwns : p.1.Owns resolve k) (hOwns' : p.2.Owns resolve l)
    (bag : Bag) {result outcome : Except RenderError Unit} {session other : Session}
    (hLeft : Setup.runAll resolve ⟨bag, k.scopes, k.file⟩ k.source.preamble.1 p.1 =
      (result, session))
    (hRight : Setup.runAll resolve ⟨bag, l.scopes, l.file⟩ l.source.preamble.1 p.2 =
      (outcome, other)) :
    result = outcome ∧ (pastCoupling resolve past).Sessions (session, other) ∧
    session.Owns resolve k ∧ other.Owns resolve l ∧
    (result = .ok () → OwnedContexts resolve (session, other) ⟨bag, k.scopes, k.file⟩
      ⟨bag, l.scopes, l.file⟩) := by
  obtain ⟨hSound, hOther, hDepth, events, hKeeps, hKeeps'⟩ := hSessions
  have hFile : k.file = l.file := congrArg Imported.file hSource
  have hCarried := Session.preamble_carried (c := ⟨bag, k.scopes, k.file⟩) hSound hOwns rfl rfl
  have hCarried' := Session.preamble_carried (c := ⟨bag, l.scopes, l.file⟩) hOther hOwns' rfl rfl
  have hStart := p.1.progress_start resolve k
  have hStart' := p.2.progress_start resolve l
  rw [← List.append_nil k.source.preamble.1] at hStart
  rw [← List.append_nil l.source.preamble.1] at hStart'
  have hListed := hKeeps.runAll (c := ⟨bag, k.scopes, k.file⟩) hOwns rfl rfl hStart
  have hListed' := hKeeps'.runAll (c := ⟨bag, l.scopes, l.file⟩) hOwns' rfl rfl hStart'
  rw [hLeft] at hCarried hListed
  rw [hRight] at hCarried' hListed'
  have hSame : result = outcome :=
    calc result
      _ = Setup.outcomes resolve k.file [] k.source.preamble.1 := hCarried.outcome_eq
      _ = Setup.outcomes resolve l.file [] l.source.preamble.1 := by rw [hSource, hFile]
      _ = outcome := hCarried'.outcome_eq.symm
  rw [← hSource, ← hFile] at hListed'
  rw [List.append_assoc] at hListed
  refine ⟨hSame, ⟨hCarried.sound, hCarried'.sound, ?_, _, hListed, hListed'⟩, hCarried.owns,
    hCarried'.owns, ?_⟩
  · exact (hCarried.evolves hOwns).maxDepth_eq.trans
      (hDepth.trans (hCarried'.evolves hOwns').maxDepth_eq.symm)
  · intro hOk
    exact ⟨rfl, hFile, k, l, hSource, hCarried.owns, hCarried'.owns, hCarried.complete hOwns hOk,
      hCarried'.complete hOwns' (hSame ▸ hOk), .own, .own⟩

/-- Components do the same in both sessions. -/
theorem past_components_alike {left right : Nested}
    (hNested : (pastCoupling resolve past).lockstep.Alike left right) :
    (pastCoupling resolve past).lockstep.ComponentsAlike resolve left right := by
  rintro p k l bag _ hSessions ⟨hSource, hKnows, hKnows'⟩ rfl
  have hSound := hSessions.1
  have hOther := hSessions.2.1
  apply Lockstep.renderComponent_alike_of_twins hNested hSound hOther hSource hKnows hKnows'
    (fun _ _ => trivial)
  · intro result session other hRun hRun' hLeft hRight
    obtain ⟨-, hAfter, -, -, hContexts⟩ := past_prepared_alike hSessions hSource
      (hSound.owns hKnows) (hOther.owns hKnows') bag hRun hRun'
    exact ⟨hAfter, ⟨hLeft.advances hSound hKnows, hRight.advances hOther hKnows'⟩, hContexts⟩
  · rintro q html r hContext ⟨hLater, hLater'⟩ ⟨hSoundLater, hOtherLater, -⟩ _
    have hScopes : r.context.scopes = k.scopes := by rw [hContext]
    rw [link_eq_ok hSoundLater (hLater.toGrows.knows hKnows) hScopes,
      link_eq_ok hOtherLater (hLater'.toGrows.knows hKnows') rfl]
    exact ⟨rfl, fun _ _ => trivial⟩

theorem past_nested_alike (resolve : Resolver) (past : List Event) (levels : Nat) :
    (pastCoupling resolve past).lockstep.Alike (nestedWithin resolve levels)
      (nestedWithin resolve levels) := by
  apply Lockstep.nestedWithin_alike 0
  · intro p c d task other token hSessions _ _
    unfold nestedWithin
    rw [hSessions.2.2.1]
    exact .error hSessions ((pastCoupling resolve past).lockstep.later_refl p)
  · intro left right hNested
    exact past_components_alike hNested

/-- What an outcome says of the two sessions it leaves. -/
theorem Lockstep.Outcome.of_past {α : Type} {Good : α → Prop}
    {left right : Except RenderError α × Session}
    (h : (pastCoupling resolve past).lockstep.Outcome p Good left right) :
    left.1 = right.1 ∧ (pastCoupling resolve past).Sessions (left.2, right.2) ∧
    p.1.Advances resolve left.2 := by
  cases h with
  | cut hCut => exact hCut.elim
  | error hSessions hLater => exact ⟨rfl, hSessions, hLater.1⟩
  | ok _ hSessions hLater => exact ⟨rfl, hSessions, hLater.1⟩

/-- A template in frames of its own serves the same in both sessions. -/
theorem past_unlinked_alike {first second : Except RenderError (List Char) × Session}
    (hSessions : (pastCoupling resolve past).Sessions p) (hOwns : p.1.Owns resolve k)
    (hOwns' : p.2.Owns resolve k) (hLast : ServesLast k.tokens) (levels : Nat) (bag : Bag)
    {happens other : NestedEvents}
    (hFirst : (k.unlinked (nestedWithin resolve levels) happens resolve bag p.1).outcome = first)
    (hSecond : (k.unlinked (nestedWithin resolve levels) other resolve bag p.2).outcome = second) :
    first.1 = second.1 ∧ (pastCoupling resolve past).Sessions (first.2, second.2) ∧
      first.2.Owns resolve k := by
  have hPrepared := @past_prepared_alike _ _ _ _ _ hSessions rfl hOwns hOwns' bag
  rw [Component.unlinked_eq_preamble] at hFirst hSecond
  revert hPrepared hFirst hSecond
  rcases Setup.runAll resolve ⟨bag, k.scopes, k.file⟩ k.source.preamble.1 p.1 with
    ⟨result, session⟩
  rcases Setup.runAll resolve ⟨bag, k.scopes, k.file⟩ k.source.preamble.1 p.2 with
    ⟨outcome, fresh⟩
  rintro rfl rfl hPrepared
  obtain ⟨rfl, hReady, hOwned, -, hContexts⟩ := hPrepared rfl rfl
  cases result with
  | error e => exact ⟨rfl, hReady, hOwned⟩
  | ok _ =>
      dsimp only
      cases hServed : k.source.preamble.2 with
      | error e => exact ⟨rfl, hReady, hOwned⟩
      | ok served =>
          -- behind the preamble nothing is set up any more
          have hDone := @Lockstep.unlinked_alike _ _ _ resolve _ _
            (past_nested_alike resolve past levels) happens other
            ((Rendering.start k.tokens ⟨bag, k.scopes, k.file⟩).moveTo served) [] hReady
            (hContexts rfl) (fun _ _ => trivial)
            (fun t ht keyword hKind => reader?_of_served hLast hServed ht hKind) trivial
          obtain ⟨hSame, hAfter, hAdvances⟩ := hDone.of_past
          exact ⟨hSame, hAfter, (hAdvances.owned k hOwned).1⟩

end

namespace FreshPage

variable (page : FreshPage)

/-- The same page with other parameters. -/
def withBag (bag : Bag) : FreshPage :=
  { page with bag }

/-- The page, taken for a component that nothing imports. -/
def host : Component :=
  ⟨"", page.tokens, page.file, (Session.start page.limit).pageScopes.2⟩

/-- The page and its session after it has been rendered with some parameters, one after the
other and whether or not that succeeded. -/
def after (bags : List Bag) : Rendering × Session :=
  bags.foldl
    (fun done bag => (done.1.update (done.2.nested page.resolve) page.resolve bag done.2).2)
    (page.start, page.session)

/-- What the page is rendered to with the parameters `bag` after it has been rendered with
those in `bags`. -/
def updated (bags : List Bag) (bag : Bag) : Except RenderError (List Char) :=
  ((page.after bags).1.update ((page.after bags).2.nested page.resolve) page.resolve bag
    (page.after bags).2).1

/-- The files of a kind that are registered when the page is rendered with some parameters,
each time in a session of its own. -/
def listed (bags : List Bag) (kind : AssetKind) : List String :=
  (bags.flatMap fun bag => (page.withBag bag).paths kind).eraseDups

/-- What the page serves with the parameters `bag`, with the files linked that are registered
with those in `bags`. -/
def linked (bags : List Bag) (bag : Bag) : Except RenderError (List Char) :=
  (page.withBag bag).served.result >>= fun html =>
    (linkAssets html (page.listed bags .stylesheet) (page.listed bags .script)).mapError
      fun e => .runtime (.missingHead e) ⟨page.file, 1, 1⟩

/-- What there is after some renderings: the page can be rendered from its first token, its
session is as deep as it was and its files are listed. -/
structure Renewed (bags : List Bag) (done : Rendering × Session) : Prop where
  origin_eq : ∃ bag, done.1.origin = (page.withBag bag).start.origin
  sound : done.2.Sound page.resolve
  owns : done.2.Owns page.resolve page.host
  maxDepth_eq : done.2.maxDepth = page.limit
  depth_eq : done.2.depth = 0
  keeps : ∃ past, done.2.Keeps past ∧
    ∀ kind, (registeredPaths kind past).eraseDups = page.listed bags kind

theorem sound_session : page.session.Sound page.resolve :=
  (Session.sound_start page.resolve page.limit).opens (Session.start page.limit).opens_pageScopes

theorem owns_session : page.session.Owns page.resolve page.host :=
  (Session.sound_start page.resolve page.limit).owns_pageScopes page.tokens page.file

theorem renewed_start : page.Renewed [] (page.start, page.session) where
  origin_eq := ⟨page.bag, rfl⟩
  sound := page.sound_session
  owns := page.owns_session
  maxDepth_eq := rfl
  depth_eq := rfl
  keeps := ⟨[], Session.keeps_start page.limit, fun kind => by cases kind <;> rfl⟩

/-- What the page serves in a session, before anything is linked. -/
def servedIn (session : Session) (bag : Bag) : Served :=
  page.host.unlinked (nestedWithin page.resolve page.limit) (eventsWithin page.resolve page.limit)
    page.resolve bag session

variable {page} {bags : List Bag} {done : Rendering × Session}

/-- A page that is rendered anew is what it serves in its session, with files linked. -/
theorem Renewed.update_eq (h : page.Renewed bags done) (bag : Bag) :
    (done.1.update (done.2.nested page.resolve) page.resolve bag done.2).1 =
      ((page.servedIn done.2 bag).result >>=
        (page.withBag bag).start.link (page.servedIn done.2 bag).session).map (substitute bag) ∧
    (done.1.update (done.2.nested page.resolve) page.resolve bag done.2).2.2 =
      (page.servedIn done.2 bag).session := by
  obtain ⟨earlier, hOrigin⟩ := h.origin_eq
  obtain ⟨hTokens, hContext⟩ := Prod.mk.inj hOrigin
  have hStart : Rendering.start done.1.tokens { done.1.context with bag } =
      (page.withBag bag).start := by
    rw [hTokens, Context.withBag_congr hContext]
    rfl
  have hNested : done.2.nested page.resolve = nestedWithin page.resolve page.limit := by
    unfold Session.nested
    rw [h.maxDepth_eq, h.depth_eq]
    rfl
  have hLinked := @Rendering.statements_eq_unlinked (nestedWithin page.resolve page.limit)
    (eventsWithin page.resolve page.limit) page.resolve [] (page.withBag bag).start done.2
  obtain ⟨hResult, hSession⟩ := Prod.mk.inj hLinked
  unfold Rendering.update Rendering.template
  rw [hStart, hNested]
  exact ⟨congrArg (·.map (substitute bag)) hResult, hSession⟩

/-- It serves what it serves in a session of its own, and its files join those before. -/
theorem Renewed.served (h : page.Renewed bags done) (hLast : ServesLast page.tokens) (bag : Bag) :
    (page.servedIn done.2 bag).result = (page.withBag bag).served.result ∧
    (page.servedIn done.2 bag).session.Sound page.resolve ∧
    (page.servedIn done.2 bag).session.Owns page.resolve page.host ∧
    (page.servedIn done.2 bag).session.maxDepth = page.limit ∧
    ∃ past, (page.servedIn done.2 bag).session.Keeps past ∧
      ∀ kind, (registeredPaths kind past).eraseDups = page.listed (bags ++ [bag]) kind := by
  obtain ⟨past, hPast, hListed⟩ := h.keeps
  have hSessions : (pastCoupling page.resolve past).Sessions (done.2, page.session) :=
    ⟨h.sound, page.sound_session, h.maxDepth_eq, [], by rwa [List.append_nil],
      Session.keeps_start page.limit⟩
  obtain ⟨hSame, ⟨hSound, -, hDepth, events, hKeeps, hKeeps'⟩, hOwns⟩ :=
    past_unlinked_alike hSessions h.owns page.owns_session hLast page.limit bag
      (rfl : (page.servedIn done.2 bag).outcome = _)
      (rfl : (page.withBag bag).served.outcome = _)
  have hAccounts := (page.withBag bag).page_accounts
  refine ⟨hSame, hSound, hOwns, hDepth.trans hAccounts.grows.maxDepth_eq, _, hKeeps, ?_⟩
  intro kind
  have hPage : (page.withBag bag).start.context.scopes.assets kind = 0 := by cases kind <;> rfl
  have hNew : (registeredPaths kind events).eraseDups =
      ((page.withBag bag).paths kind).eraseDups :=
    (hKeeps'.paths_eq hPage).symm.trans (hAccounts.keeps.paths_eq hPage)
  rw [registeredPaths_append, listed, List.flatMap_append, List.flatMap_singleton]
  exact ScopeArena.eraseDups_append_congr (hListed kind) hNew

/-- A page that is rendered anew links what has been registered so far and what it registers
itself. -/
theorem Renewed.update (h : page.Renewed bags done) (hLast : ServesLast page.tokens) (bag : Bag) :
    (done.1.update (done.2.nested page.resolve) page.resolve bag done.2).1 =
      (page.linked (bags ++ [bag]) bag).map (substitute bag) ∧
    page.Renewed (bags ++ [bag])
      (done.1.update (done.2.nested page.resolve) page.resolve bag done.2).2 := by
  obtain ⟨hResult, hSession⟩ := h.update_eq bag
  obtain ⟨hSame, hSound, hOwns, hMaxDepth, past, hKeeps, hListed⟩ := h.served hLast bag
  have hDepth := done.1.depth_update page.resolve bag done.2
  refine ⟨?_, ?_, hSession ▸ hSound, hSession ▸ hOwns, hSession ▸ hMaxDepth,
    hDepth.trans h.depth_eq, past, hSession ▸ hKeeps, hListed⟩
  · rw [hResult, hSame]
    unfold linked
    congr 1
    refine bind_congr_ok fun html _ => ?_
    have hPaths (kind : AssetKind)
        (hPage : (page.withBag bag).start.context.scopes.assets kind = 0) :=
      (hKeeps.paths_eq hPage).trans (hListed kind)
    rw [Rendering.link_eq_mapError, hPaths .stylesheet rfl, hPaths .script rfl]
    rfl
  · obtain ⟨earlier, hOrigin⟩ := h.origin_eq
    obtain ⟨hTokens, hContext⟩ := Prod.mk.inj hOrigin
    refine ⟨bag, (Rendering.update_origin _ page.resolve bag done.1 done.2).trans ?_⟩
    rw [hTokens, Context.withBag_congr hContext]
    rfl

theorem Renewed.foldl (h : page.Renewed bags done) (hLast : ServesLast page.tokens)
    (more : List Bag) : page.Renewed (bags ++ more)
      (more.foldl (fun done bag =>
        (done.1.update (done.2.nested page.resolve) page.resolve bag done.2).2) done) := by
  induction more generalizing bags done with
  | nil =>
      rw [List.append_nil]
      exact h
  | cons bag more ih =>
      rw [List.append_cons]
      exact ih (h.update hLast bag).2

theorem updated_eq (hLast : ServesLast page.tokens) (bags : List Bag) (bag : Bag) :
    page.updated bags bag = (page.linked (bags ++ [bag]) bag).map (substitute bag) :=
  ((page.renewed_start.foldl hLast bags).update hLast bag).1

/-- Rendering a page anew forgets the parameters it had before, but not the files that were
registered with them. Whatever it has been rendered with, successfully or not, it serves what it
serves in a session of its own, and links the files of all renderings in the order of the first
registrations. It gives what it gives in a session of its own if these are the files that
it registers itself, in their order, or if nothing is served. -/
theorem update_links_all_files {source : String}
    (hTokens : Token.scanTemplate source page.file = .ok page.tokens) (bags : List Bag)
    (bag : Bag) :
    page.updated bags bag = (page.linked (bags ++ [bag]) bag).map (substitute bag) ∧
    ((∀ html, (page.withBag bag).served.result = .ok html →
        ∀ kind, page.listed (bags ++ [bag]) kind = page.listed [bag] kind) →
      page.updated bags bag = page.updated [] bag) := by
  have hLast := Token.scanTemplate_servesLast hTokens
  refine ⟨updated_eq hLast bags bag, ?_⟩
  intro hFiles
  rw [updated_eq hLast bags, updated_eq hLast []]
  congr 1
  refine bind_congr_ok fun html hServed => ?_
  rw [hFiles html hServed, hFiles html hServed]
  rfl

/-- The template of a page that makes cards of a list of names. -/
def cardsSource : String :=
  "as Card import 'card' serve (<head></head>@each (names:name) \x7b<Card>@(name)</Card>\x7d)"

/-- That page, where cards have a stylesheet. -/
def cards : FreshPage where
  resolve _ path := .ok ⟨path, "link '/card.css' serve (<p>@(slot)</p>)"⟩
  limit := 64
  tokens := (Token.scanTemplate cardsSource "page").toOption.getD []
  bag := []
  file := "page"

def namesBag (names : List String) : Bag :=
  [("names", .array (names.map .string))]

/-- A page that has made other cards before gives what it gives for the first time. -/
theorem cards_forget_names :
    Token.scanTemplate cardsSource cards.file = .ok cards.tokens ∧
    (∀ kind, cards.listed [namesBag ["a"], namesBag ["b", "c"]] kind =
      cards.listed [namesBag ["b", "c"]] kind) ∧
    cards.updated [namesBag ["a"]] (namesBag ["b", "c"]) =
      cards.updated [] (namesBag ["b", "c"]) := by
  have hTokens : Token.scanTemplate cardsSource cards.file = .ok cards.tokens :=
    toOption_eq_some.mp (by decide +kernel)
  have hFiles (kind : AssetKind) : cards.listed [namesBag ["a"], namesBag ["b", "c"]] kind =
      cards.listed [namesBag ["b", "c"]] kind := by cases kind <;> decide +kernel
  exact ⟨hTokens, hFiles,
    (update_links_all_files hTokens [namesBag ["a"]] (namesBag ["b", "c"])).2 fun _ _ => hFiles⟩

/-- A page that has made a card before links the stylesheet of cards when it makes none. -/
theorem cards_keep_stylesheet :
    cards.updated [namesBag ["a"]] (namesBag []) ≠ cards.updated [] (namesBag []) := by
  have hKept : (cards.updated [namesBag ["a"]] (namesBag [])).toOption ≠
      (cards.updated [] (namesBag [])).toOption := by
    decide +kernel
  exact fun h => hKept (congrArg _ h)

end FreshPage

end HtmlTemplate
