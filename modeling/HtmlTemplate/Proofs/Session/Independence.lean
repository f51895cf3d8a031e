import HtmlTemplate.Proofs.Session.History

/-! A component does not remember. It is invoked in two sessions that have come from one,
and the two invocations are compared: their frames have different numbers and may hold
different parts of what the templates define, but all that is rendered is rendered where
the preambles have been carried out. -/
namespace HtmlTemplate

/-- A component has no assets in its own frames to link. -/
theorem link_eq_ok {resolve : Resolver} {session : Session} (hSound : session.Sound resolve)
    {k : Component} (hKnows : session.Knows k) {r : Rendering}
    (hScopes : r.context.scopes = k.scopes) (html : List Char) :
    r.link session html = .ok html := by
  have hCanonical := hSound.canonical k hKnows
  obtain ⟨_, hStylesheets⟩ := hCanonical.stylesheets
  obtain ⟨_, hScripts⟩ := hCanonical.scripts
  unfold Rendering.link
  dsimp only
  rw [hScopes, hStylesheets.entries_eq, hScripts.entries_eq]
  rfl

/-- The contexts of two renderings: the same parameters, in frames of templates of the same
source that own their frames and are complete. -/
structure OwnedContexts (resolve : Resolver) (p : Session × Session) (c d : Context) : Prop where
  bag_eq : c.bag = d.bag
  file_eq : c.file = d.file
  frames : ∃ k l : Component, k.source = l.source ∧ p.1.Owns resolve k ∧ p.2.Owns resolve l ∧
    p.1.Complete resolve k ∧ p.2.Complete resolve l ∧ p.1.Within k c.scopes ∧ p.2.Within l d.scopes

namespace OwnedContexts

variable {resolve : Resolver} {p : Session × Session} {c d : Context}

theorem function?_eq (h : OwnedContexts resolve p c d) :
    p.1.function? c.scopes = p.2.function? d.scopes := by
  obtain ⟨k, l, hSource, hOwns, hOwns', hComplete, hComplete', hWithin, hWithin'⟩ := h.frames
  funext name
  rw [hWithin.function?_eq hOwns, hWithin'.function?_eq hOwns', hComplete.declared,
    hComplete'.declared, hSource]

/-- The two find components of the same source under each name. -/
theorem components_found (h : OwnedContexts resolve p c d) (name : String) :
    Option.Rel (fun k l => k.source = l.source ∧ p.1.Knows k ∧ p.2.Knows l)
      (p.1.component? c.scopes name) (p.2.component? d.scopes name) := by
  obtain ⟨k, l, hSource, hOwns, hOwns', hComplete, hComplete', hWithin, hWithin'⟩ := h.frames
  rw [hWithin.component?_eq hOwns, hWithin'.component?_eq hOwns']
  have hImported := hComplete.imported name
  have hImported' := hComplete'.imported name
  rw [← hSource, hImported] at hImported'
  cases hFound : p.1.components.lookupLocal? k.scopes.components name with
  | none =>
      rw [hFound] at hImported'
      rw [Option.map_eq_none_iff.mp hImported'.symm]
      exact .none
  | some m =>
      rw [hFound] at hImported'
      obtain ⟨n, hFound', hSame⟩ := Option.map_eq_some_iff.mp hImported'.symm
      rw [hFound']
      exact .some ⟨(Except.ok.inj hSame).symm, ⟨_, _, hFound⟩, ⟨_, _, hFound'⟩⟩

end OwnedContexts

/-- The contexts of two renderings: the same parameters, in frames of components that
have been imported from the same source and are complete. -/
structure TwinContexts (resolve : Resolver) (p : Session × Session) (c d : Context) : Prop where
  bag_eq : c.bag = d.bag
  file_eq : c.file = d.file
  frames : ∃ k l : Component, k.source = l.source ∧ p.1.Knows k ∧ p.2.Knows l ∧
    p.1.Complete resolve k ∧ p.2.Complete resolve l ∧ p.1.Within k c.scopes ∧ p.2.Within l d.scopes

/-- Components own their frames. -/
theorem TwinContexts.owned {resolve : Resolver} {p : Session × Session} {c d : Context}
    (h : TwinContexts resolve p c d) (hSound : p.1.Sound resolve) (hOther : p.2.Sound resolve) :
    OwnedContexts resolve p c d := by
  obtain ⟨hBag, hFile, k, l, hSource, hKnows, hKnows', hFrames⟩ := h
  exact ⟨hBag, hFile, k, l, hSource, hSound.owns hKnows, hOther.owns hKnows', hFrames⟩

namespace Lockstep

open Session (Carried)

variable {L : Lockstep} {resolve : Resolver} {left right : Nested} {p : Session × Session}
  {k l : Component}

/-- A component is rendered alike in two sound sessions if all that matters of them survives
its preamble. -/
theorem renderComponent_alike_of_twins (hNested : L.Alike left right)
    (hSound : p.1.Sound resolve) (hOther : p.2.Sound resolve) (hSource : k.source = l.source)
    (hKnows : p.1.Knows k) (hKnows' : p.2.Knows l) (hPieces : ∀ t ∈ k.tokens, L.Piece t)
    (bag : Bag) (hPrepared : ∀ result session other,
      Setup.runAll resolve ⟨bag, k.scopes, k.file⟩ k.source.preamble.1 p.1 = (result, session) →
      Setup.runAll resolve ⟨bag, l.scopes, l.file⟩ l.source.preamble.1 p.2 = (result, other) →
      Carried resolve p.1 k [] k.source.preamble.1 [] (result, session) →
      Carried resolve p.2 l [] l.source.preamble.1 [] (result, other) →
      L.Sessions (session, other) ∧ L.Later p (session, other) ∧ (result = .ok () →
        L.Contexts (session, other) ⟨bag, k.scopes, k.file⟩ ⟨bag, l.scopes, l.file⟩))
    (hLinks : L.LinksAlike p ⟨bag, k.scopes, k.file⟩ ⟨bag, l.scopes, l.file⟩) :
    L.Outcome p L.Text (renderComponent left resolve k bag p.1)
      (renderComponent right resolve l bag p.2) := by
  have hFile : k.file = l.file := congrArg Imported.file hSource
  have hLeft := Session.preamble_carried (c := ⟨bag, k.scopes, k.file⟩) hSound
    (hSound.owns hKnows) rfl rfl
  have hRight := Session.preamble_carried (c := ⟨bag, l.scopes, l.file⟩) hOther
    (hOther.owns hKnows') rfl rfl
  -- the outcome is that of the statements themselves, which are the same
  have hSame : (Setup.runAll resolve ⟨bag, k.scopes, k.file⟩ k.source.preamble.1 p.1).1 =
      (Setup.runAll resolve ⟨bag, l.scopes, l.file⟩ l.source.preamble.1 p.2).1 := by
    rw [hLeft.outcome_eq, hRight.outcome_eq, ← hSource, ← hFile]
  apply renderComponent_alike_of_preamble hNested hSource
    (hSound.canonical k hKnows).servesLast hPieces
  · revert hSame hLeft hRight hPrepared
    rcases Setup.runAll resolve ⟨bag, k.scopes, k.file⟩ k.source.preamble.1 p.1 with
      ⟨result, session⟩
    rcases Setup.runAll resolve ⟨bag, l.scopes, l.file⟩ l.source.preamble.1 p.2 with ⟨_, other⟩
    intro hPrepared hLeft hRight hSame
    cases hSame
    obtain ⟨hSessions, hLater, -⟩ := hPrepared result session other rfl rfl hLeft hRight
    cases result with
    | error e => exact .error hSessions hLater
    | ok _ => exact .ok trivial hSessions hLater
  · intro session other hDone hDone'
    rw [hDone] at hLeft
    rw [hDone'] at hRight
    exact (hPrepared (.ok ()) session other hDone hDone' hLeft hRight).2.2 rfl
  · exact hLinks

end Lockstep

/-- Every import leads to a component that imports itself and defines a function. -/
def selfImporting : Resolver :=
  fun _ path => .ok ⟨path, "as again import 'a' fn f(n) \x7breturn n\x7d serve (@f(slot)@(x))"⟩

/-- A page that has imported one component. -/
def importingPage : History :=
  ⟨((Setup.importComponent "c" "c" ⟨"page", 1, 1⟩).run selfImporting ⟨[], ⟨0, 0, 0, 0⟩, "page"⟩
    (Session.start 64).pageScopes.1).2, [⟨0, 0, 0, 0⟩]⟩

/-- What that page has imported. -/
def importedComponent : Component :=
  (importingPage.session.components.lookupLocal? 0 "c").get (by decide +kernel)

end HtmlTemplate
