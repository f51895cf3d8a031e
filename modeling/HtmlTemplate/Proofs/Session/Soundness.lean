import HtmlTemplate.Proofs.Session.Growth
import HtmlTemplate.Proofs.Session.Preamble
import HtmlTemplate.Proofs.Source.Modes

/-! What the frames of components hold. Whatever has been rendered in a session, the
frames of a component hold nothing but what its own preamble puts there, and an import is
bound to what its first statement of that name imports. -/
namespace HtmlTemplate

namespace Setup

/-- The functions that a statement defines. -/
def functions : Setup → List Function
  | .useFunctions group => group.map Function.builtin
  | .declare f => [f]
  | _ => []

/-- What the first import of a name comes to; later ones of that name do nothing. -/
def imported? (resolve : Resolver) (file name : String) :
    List Setup → Option (Except RenderError Imported)
  | [] => none
  | .importComponent other path location :: rest =>
    if other = name then some (importSource resolve file path location)
    else imported? resolve file name rest
  | _ :: rest => imported? resolve file name rest

end Setup

namespace Imported

/-- The setup statements of a template, and the tokens from `serve` on or the error
that ends the reading. -/
def preamble (found : Imported) : List Setup × Except RenderError (List Token) :=
  HtmlTemplate.preamble ((found.tokens.getLast?.map Token.location).getD ⟨found.file, 1, 1⟩)
    found.tokens

/-- What a template imports under a name. -/
def imported? (resolve : Resolver) (found : Imported) (name : String) :
    Option (Except RenderError Imported) :=
  Setup.imported? resolve found.file name found.preamble.1

/-- The functions that a template defines, in order. -/
def functions (found : Imported) : List Function :=
  found.preamble.1.flatMap Setup.functions

end Imported

/-- What a component was imported from. -/
def Component.source (k : Component) : Imported :=
  ⟨k.file, k.tokens⟩

namespace Session

/-- The frames of a component hold what its preamble puts there, all of it or a part.
Those of its assets are empty, because assets are registered at the page. -/
structure Canonical (resolve : Resolver) (session : Session) (k : Component) : Prop where
  servesLast : ServesLast k.tokens
  components : session.components.Lone k.scopes.components
  functions : session.functions.Lone k.scopes.functions
  stylesheets : ∃ outer, session.stylesheets.Chained k.scopes.stylesheets outer
  scripts : ∃ outer, session.scripts.Chained k.scopes.scripts outer
  imported : ∀ name l, session.components.lookupLocal? k.scopes.components name = some l →
    k.source.imported? resolve name = some (.ok l.source)
  declared : ∀ name f, session.functions.lookupLocal? k.scopes.functions name = some f →
    ∃ g ∈ k.source.functions, g.name = name

/-- All components of a session are so, and no two share frames. -/
structure Sound (resolve : Resolver) (session : Session) : Prop where
  canonical : ∀ k, session.Knows k → session.Canonical resolve k
  distinct : ∀ k l, session.Knows k → session.Knows l →
    k.scopes.components = l.scopes.components ∨ k.scopes.functions = l.scopes.functions → k = l

theorem sound_start (resolve : Resolver) (limit : Nat) : (start limit).Sound resolve := by
  have hNone (k : Component) : ¬(start limit).Knows k := by
    rintro ⟨scope, name, hBound⟩
    cases hBound
  exact ⟨fun k hKnows => absurd hKnows (hNone k), fun k _ hKnows => absurd hKnows (hNone k)⟩

variable {resolve : Resolver} {session after : Session}

theorem Canonical.opens {k : Component} (h : session.Canonical resolve k)
    (hOpens : session.Opens after) : after.Canonical resolve k where
  servesLast := h.servesLast
  components := h.components.writes (hOpens.components.writes 0)
  functions := h.functions.writes (hOpens.functions.writes 0)
  stylesheets := h.stylesheets.imp fun _ hChained => hChained.opens hOpens.stylesheets
  scripts := h.scripts.imp fun _ hChained => hChained.opens hOpens.scripts
  imported name l hBound := h.imported name l (hOpens.components.lookupLocal?_eq _ _ ▸ hBound)
  declared name f hBound := h.declared name f (hOpens.functions.lookupLocal?_eq _ _ ▸ hBound)

theorem Sound.opens (h : session.Sound resolve) (hOpens : session.Opens after) :
    after.Sound resolve where
  canonical k hKnows := (h.canonical k ((hOpens.knows_iff k).mp hKnows)).opens hOpens
  distinct k l hKnows hOther :=
    h.distinct k l ((hOpens.knows_iff k).mp hKnows) ((hOpens.knows_iff l).mp hOther)

/-- A definition is sound in frames that belong to no component, or to one whose preamble
makes it. -/
theorem Sound.defineFunction (h : session.Sound resolve) {scopes : Scopes} {f : Function}
    (hOwner : ∀ k, session.Knows k → k.scopes.functions = scopes.functions →
      ∃ g ∈ k.source.functions, g.name = f.name) :
    (Setup.defineFunction scopes session f).Sound resolve where
  distinct := h.distinct
  canonical k hKnows := by
    have hOld := h.canonical k hKnows
    have hWrites := ScopeArena.writes_define scopes.functions session.functions f.name f
    refine ⟨hOld.servesLast, hOld.components, hOld.functions.writes hWrites, hOld.stylesheets,
      hOld.scripts, hOld.imported, ?_⟩
    intro name g hBound
    unfold Setup.defineFunction at hBound
    rw [ScopeArena.lookupLocal?_define] at hBound
    split at hBound
    · next hHere =>
      obtain ⟨hFrame, rfl, -⟩ := hHere
      exact hOwner k hKnows hFrame.symm
    · exact hOld.declared name g hBound

theorem Sound.registerAsset (h : session.Sound resolve) (scopes : Scopes) (path : String)
    (kind : AssetKind) : (Setup.registerAsset scopes session path kind).Sound resolve := by
  cases kind with
  | stylesheet =>
      refine ⟨?_, h.distinct⟩
      intro k hKnows
      have hOld := h.canonical k hKnows
      obtain ⟨outer, hChained⟩ := hOld.stylesheets
      exact ⟨hOld.servesLast, hOld.components, hOld.functions,
        ⟨outer, hChained.define_root scopes.stylesheets path path⟩, hOld.scripts, hOld.imported,
        hOld.declared⟩
  | script =>
      refine ⟨?_, h.distinct⟩
      intro k hKnows
      have hOld := h.canonical k hKnows
      obtain ⟨outer, hChained⟩ := hOld.scripts
      exact ⟨hOld.servesLast, hOld.components, hOld.functions, hOld.stylesheets,
        ⟨outer, hChained.define_root scopes.scripts path path⟩, hOld.imported, hOld.declared⟩

/-- Frames that are open. -/
structure Holds (session : Session) (scopes : Scopes) : Prop where
  components : scopes.components < session.components.size
  stylesheets : scopes.stylesheets < session.stylesheets.size
  scripts : scopes.scripts < session.scripts.size
  functions : scopes.functions < session.functions.size

theorem Holds.grows {scopes : Scopes} (h : session.Holds scopes) (hGrows : session.Grows after) :
    after.Holds scopes :=
  ⟨Nat.lt_of_lt_of_le h.components hGrows.components_le,
    Nat.lt_of_lt_of_le h.stylesheets hGrows.stylesheets_le,
    Nat.lt_of_lt_of_le h.scripts hGrows.scripts_le,
    Nat.lt_of_lt_of_le h.functions hGrows.functions_le⟩

theorem holds_blockScopes {scopes : Scopes} (session : Session) (h : session.Holds scopes) :
    (session.blockScopes scopes).1.Holds (session.blockScopes scopes).2 :=
  ⟨Nat.lt_of_lt_of_eq (Nat.lt_succ_self _) (ScopeArena.size_alloc _ _).symm, h.stylesheets,
    h.scripts, Nat.lt_of_lt_of_eq (Nat.lt_succ_self _) (ScopeArena.size_alloc _ _).symm⟩

theorem holds_importedComponent (session : Session) (importer : Scopes) (name : String)
    (found : Imported) : (session.addComponent importer name found).Holds
      (session.importedComponent importer name found).scopes := by
  refine ⟨?_, ?_, ?_, ?_⟩
  · unfold addComponent
    rw [ScopeArena.size_define]
    exact Nat.lt_of_lt_of_eq (Nat.lt_succ_self _) (ScopeArena.size_alloc _ _).symm
  all_goals exact Nat.lt_of_lt_of_eq (Nat.lt_succ_self _) (ScopeArena.size_alloc _ _).symm

theorem Canonical.holds {k : Component} (h : session.Canonical resolve k) :
    session.Holds k.scopes := by
  obtain ⟨_, hStylesheets⟩ := h.stylesheets
  obtain ⟨_, hScripts⟩ := h.scripts
  exact ⟨h.components.1, hStylesheets.lt_size, hScripts.lt_size, h.functions.1⟩

/-- Whose frames these are: they hold nothing but what the preamble puts there, and no other
component has one of them. So it is with all components of a sound session, and with a page,
taken for a component that nothing imports. -/
structure Owns (resolve : Resolver) (session : Session) (k : Component) : Prop where
  holds : session.Holds k.scopes
  components : session.components.Lone k.scopes.components
  functions : session.functions.Lone k.scopes.functions
  alone : ∀ l, session.Knows l →
    l.scopes.components = k.scopes.components ∨ l.scopes.functions = k.scopes.functions → l = k
  imported : ∀ name l, session.components.lookupLocal? k.scopes.components name = some l →
    k.source.imported? resolve name = some (.ok l.source)
  declared : ∀ name f, session.functions.lookupLocal? k.scopes.functions name = some f →
    ∃ g ∈ k.source.functions, g.name = name

theorem Sound.owns (h : session.Sound resolve) {k : Component} (hKnows : session.Knows k) :
    session.Owns resolve k :=
  have hCanonical := h.canonical k hKnows
  ⟨hCanonical.holds, hCanonical.components, hCanonical.functions,
    fun l hOther => h.distinct l k hOther hKnows, hCanonical.imported, hCanonical.declared⟩

theorem Owns.opens {k : Component} (h : session.Owns resolve k) (hOpens : session.Opens after) :
    after.Owns resolve k where
  holds := h.holds.grows hOpens.grows
  components := h.components.writes (hOpens.components.writes 0)
  functions := h.functions.writes (hOpens.functions.writes 0)
  alone l hKnows := h.alone l ((hOpens.knows_iff l).mp hKnows)
  imported name l hBound := h.imported name l (hOpens.components.lookupLocal?_eq _ _ ▸ hBound)
  declared name f hBound := h.declared name f (hOpens.functions.lookupLocal?_eq _ _ ▸ hBound)

/-- What grows leaves frames alone that are open already. -/
theorem Owns.alone_grows {k l : Component} (h : session.Owns resolve k)
    (hGrows : session.Grows after) (hKnows : after.Knows l)
    (hShared : l.scopes.components = k.scopes.components ∨
      l.scopes.functions = k.scopes.functions) : l = k := by
  rcases hGrows.fresh l hKnows with hKnown | ⟨hComponents, hFunctions⟩
  · exact h.alone l hKnown hShared
  · rcases hShared with hEq | hEq
    · exact absurd (hEq ▸ hComponents) (Nat.not_le.mpr h.holds.components)
    · exact absurd (hEq ▸ hFunctions) (Nat.not_le.mpr h.holds.functions)

/-- A component that has just been imported has empty frames. -/
theorem canonical_importedComponent {importer : Scopes} {name : String} {found : Imported}
    (hHolds : session.Holds importer) (hLast : ServesLast found.tokens) :
    (session.addComponent importer name found).Canonical resolve
      (session.importedComponent importer name found) := by
  have hLone := ScopeArena.lone_alloc session.components
  have hFresh : session.components.size ≠ importer.components :=
    Nat.ne_of_gt hHolds.components
  refine ⟨hLast, hLone.writes (ScopeArena.writes_define _ _ _ _),
    ScopeArena.lone_alloc session.functions,
    ⟨_, ScopeArena.chained_alloc _ hHolds.stylesheets⟩,
    ⟨_, ScopeArena.chained_alloc _ hHolds.scripts⟩, ?_, ?_⟩
  · intro other l hBound
    rw [lookupLocal?_addComponent, if_neg fun h => hFresh h.1.symm] at hBound
    cases (session.components.lookupLocal?_eq_none_of_le (Nat.le_refl _) other).symm.trans hBound
  · intro other f hBound
    have hOpens := (session.opens_componentScopes importer).functions
    have hEmpty := session.functions.lookupLocal?_eq_none_of_le (Nat.le_refl _) other
    cases ((hOpens.lookupLocal?_eq _ other).trans hEmpty).symm.trans hBound

/-- An import is sound in frames that belong to no component, or to one whose preamble
makes it. -/
theorem Sound.addComponent (h : session.Sound resolve) {importer : Scopes} {name : String}
    {found : Imported} (hHolds : session.Holds importer) (hLast : ServesLast found.tokens)
    (hFree : session.components.lookupLocal? importer.components name = none)
    (hOwner : ∀ k, session.Knows k → k.scopes.components = importer.components →
      k.source.imported? resolve name = some (.ok found)) :
    (session.addComponent importer name found).Sound resolve := by
  have hWrites := writes_addComponent importer session name found hFree
  refine ⟨?_, ?_⟩
  · intro k hKnows
    rcases knows_addComponent hKnows with hKnown | rfl
    · have hOpened := (h.canonical k hKnown).opens (session.opens_componentScopes importer)
      refine ⟨hOpened.servesLast, hOpened.components.writes (ScopeArena.writes_define _ _ _ _),
        hOpened.functions, hOpened.stylesheets, hOpened.scripts, ?_, hOpened.declared⟩
      intro other l hBound
      rw [lookupLocal?_addComponent] at hBound
      split at hBound
      · next hHere =>
        obtain ⟨hFrame, rfl, -⟩ := hHere
        cases hBound
        exact hOwner k hKnown hFrame.symm
      · exact (h.canonical k hKnown).imported other l hBound
    · exact canonical_importedComponent hHolds hLast
  · intro k l hKnows hOther hShared
    have hOld {k : Component} (hKnown : session.Knows k)
        (hShared : k.scopes.components = session.components.size ∨
          k.scopes.functions = session.functions.size) : False := by
      have hFrames := (h.canonical k hKnown).holds
      rcases hShared with hEq | hEq
      · exact absurd hFrames.components (by rw [hEq]; exact Nat.lt_irrefl _)
      · exact absurd hFrames.functions (by rw [hEq]; exact Nat.lt_irrefl _)
    rcases knows_addComponent hKnows with hKnown | rfl
    · rcases knows_addComponent hOther with hKnown' | rfl
      · exact h.distinct k l hKnown hKnown' hShared
      · exact (hOld hKnown hShared).elim
    · rcases knows_addComponent hOther with hKnown' | rfl
      · exact (hOld hKnown' (hShared.imp Eq.symm Eq.symm)).elim
      · rfl

end Session

end HtmlTemplate
