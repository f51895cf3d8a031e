import HtmlTemplate.Proofs.Render.Setup
import HtmlTemplate.Proofs.Session.Arena

/-! How sessions grow. Frames are opened and never closed, a component that has been
bound stays bound, and a setup statement writes to the frames of its own template. -/
namespace HtmlTemplate

namespace Session

/-- A component that some frame of a session binds. -/
def Knows (session : Session) (k : Component) : Prop :=
  ∃ scope name, session.components.lookupLocal? scope name = some k

/-- A session in which nothing has happened but the opening of frames. -/
structure Opens (session after : Session) : Prop where
  components : session.components.Opens after.components
  stylesheets : session.stylesheets.Opens after.stylesheets
  scripts : session.scripts.Opens after.scripts
  functions : session.functions.Opens after.functions
  maxDepth_eq : after.maxDepth = session.maxDepth

section

variable (session : Session)

theorem opens_enter : session.Opens session.enter :=
  ⟨.refl _, .refl _, .refl _, .refl _, rfl⟩

theorem opens_leave : session.Opens session.leave :=
  ⟨.refl _, .refl _, .refl _, .refl _, rfl⟩

theorem opens_pageScopes : session.Opens session.pageScopes.1 :=
  ⟨.alloc _ _, .alloc _ _, .alloc _ _, .alloc _ _, rfl⟩

theorem opens_blockScopes (outer : Scopes) : session.Opens (session.blockScopes outer).1 :=
  ⟨.alloc _ _, .refl _, .refl _, .alloc _ _, rfl⟩

theorem opens_componentScopes (importer : Scopes) :
    session.Opens (session.componentScopes importer).1 :=
  ⟨.alloc _ _, .alloc _ _, .alloc _ _, .alloc _ _, rfl⟩

end

/-- A session that has grown: what was bound as a component still is, and what has been
added has frames of its own. -/
structure Grows (session after : Session) : Prop where
  maxDepth_eq : after.maxDepth = session.maxDepth
  components_le : session.components.size ≤ after.components.size
  stylesheets_le : session.stylesheets.size ≤ after.stylesheets.size
  scripts_le : session.scripts.size ≤ after.scripts.size
  functions_le : session.functions.size ≤ after.functions.size
  kept : ∀ scope name k, session.components.lookupLocal? scope name = some k →
    after.components.lookupLocal? scope name = some k
  fresh : ∀ k, after.Knows k → session.Knows k ∨
    session.components.size ≤ k.scopes.components ∧ session.functions.size ≤ k.scopes.functions

variable {session after last : Session}

theorem Grows.knows (h : session.Grows after) {k : Component} (hKnows : session.Knows k) :
    after.Knows k := by
  obtain ⟨scope, name, hBound⟩ := hKnows
  exact ⟨scope, name, h.kept scope name k hBound⟩

theorem Grows.trans (h : session.Grows after) (hNext : after.Grows last) : session.Grows last where
  maxDepth_eq := hNext.maxDepth_eq.trans h.maxDepth_eq
  components_le := Nat.le_trans h.components_le hNext.components_le
  stylesheets_le := Nat.le_trans h.stylesheets_le hNext.stylesheets_le
  scripts_le := Nat.le_trans h.scripts_le hNext.scripts_le
  functions_le := Nat.le_trans h.functions_le hNext.functions_le
  kept scope name k hBound := hNext.kept scope name k (h.kept scope name k hBound)
  fresh k hKnows := by
    rcases hNext.fresh k hKnows with hKnown | ⟨hComponents, hFunctions⟩
    · exact h.fresh k hKnown
    · exact .inr ⟨Nat.le_trans h.components_le hComponents,
        Nat.le_trans h.functions_le hFunctions⟩

theorem Opens.knows_iff (h : session.Opens after) (k : Component) :
    after.Knows k ↔ session.Knows k := by
  unfold Knows
  simp only [h.components.lookupLocal?_eq]

theorem Opens.grows (h : session.Opens after) : session.Grows after where
  maxDepth_eq := h.maxDepth_eq
  components_le := h.components.size_le
  stylesheets_le := h.stylesheets.size_le
  scripts_le := h.scripts.size_le
  functions_le := h.functions.size_le
  kept scope name _ hBound := (h.components.lookupLocal?_eq scope name).trans hBound
  fresh _ hKnows := .inl ((h.knows_iff _).mp hKnows)

theorem Grows.refl (session : Session) : session.Grows session :=
  Opens.grows ⟨.refl _, .refl _, .refl _, .refl _, rfl⟩

/-- A session that has grown by what the template with some frames has defined. -/
structure Writes (scopes : Scopes) (session after : Session) : Prop extends
    session.Grows after where
  components : ScopeArena.Writes scopes.components session.components after.components
  functions : ScopeArena.Writes scopes.functions session.functions after.functions

variable {scopes : Scopes}

theorem Writes.trans (h : Writes scopes session after) (hNext : Writes scopes after last) :
    Writes scopes session last :=
  ⟨h.toGrows.trans hNext.toGrows, h.components.trans hNext.components,
    h.functions.trans hNext.functions⟩

theorem Writes.refl (scopes : Scopes) (session : Session) : Writes scopes session session :=
  ⟨.refl session, .refl _ _, .refl _ _⟩

theorem writes_defineFunction (scopes : Scopes) (session : Session) (f : Function) :
    Writes scopes session (Setup.defineFunction scopes session f) where
  maxDepth_eq := rfl
  components_le := Nat.le_refl _
  stylesheets_le := Nat.le_refl _
  scripts_le := Nat.le_refl _
  functions_le := (ScopeArena.writes_define _ _ _ _).size_le
  kept _ _ _ hBound := hBound
  fresh _ hKnows := .inl hKnows
  components := .refl _ _
  functions := ScopeArena.writes_define _ _ _ _

theorem writes_foldl_defineFunction (scopes : Scopes) (fs : List Function) (session : Session) :
    Writes scopes session (fs.foldl (Setup.defineFunction scopes) session) := by
  induction fs generalizing session with
  | nil => exact .refl scopes session
  | cons f rest ih => exact (writes_defineFunction scopes session f).trans (ih _)

theorem writes_registerAsset (scopes : Scopes) (session : Session) (path : String)
    (kind : AssetKind) : Writes scopes session (Setup.registerAsset scopes session path kind) := by
  cases kind with
  | stylesheet =>
      exact ⟨⟨rfl, Nat.le_refl _, (ScopeArena.writes_define _ _ _ _).size_le, Nat.le_refl _,
        Nat.le_refl _, fun _ _ _ h => h, fun _ h => .inl h⟩, .refl _ _, .refl _ _⟩
  | script =>
      exact ⟨⟨rfl, Nat.le_refl _, Nat.le_refl _, (ScopeArena.writes_define _ _ _ _).size_le,
        Nat.le_refl _, fun _ _ _ h => h, fun _ h => .inl h⟩, .refl _ _, .refl _ _⟩

/-- The bindings of components after an import. -/
theorem lookupLocal?_addComponent (session : Session) (importer : Scopes) (name : String)
    (found : Imported) (scope : Nat) (other : String) :
    (session.addComponent importer name found).components.lookupLocal? scope other =
      if importer.components = scope ∧ name = other ∧
          importer.components < session.components.size + 1 then
        some (session.importedComponent importer name found)
      else session.components.lookupLocal? scope other := by
  have hOpens := (session.opens_componentScopes importer).components
  have hSize : (session.componentScopes importer).1.components.size =
      session.components.size + 1 := ScopeArena.size_alloc _ _
  unfold addComponent
  rw [ScopeArena.lookupLocal?_define, hOpens.lookupLocal?_eq, hSize]

/-- An import adds nothing but its component. -/
theorem knows_addComponent {importer : Scopes} {name : String} {found : Imported} {k : Component}
    (h : (session.addComponent importer name found).Knows k) :
    session.Knows k ∨ k = session.importedComponent importer name found := by
  obtain ⟨scope, other, hBound⟩ := h
  rw [lookupLocal?_addComponent] at hBound
  split at hBound
  · exact .inr (Option.some.inj hBound).symm
  · exact .inl ⟨scope, other, hBound⟩

theorem writes_addComponent (scopes : Scopes) (session : Session) (name : String)
    (found : Imported) (hFree : session.components.lookupLocal? scopes.components name = none) :
    Writes scopes session (session.addComponent scopes name found) := by
  have hOpens := session.opens_componentScopes scopes
  have hDefines := ScopeArena.writes_define scopes.components
    (session.componentScopes scopes).1.components name (session.importedComponent scopes name found)
  have hComponents := (hOpens.components.writes scopes.components).trans hDefines
  refine ⟨⟨rfl, hComponents.size_le, hOpens.stylesheets.size_le, hOpens.scripts.size_le,
    hOpens.functions.size_le, ?_, ?_⟩, hComponents, hOpens.functions.writes _⟩
  · intro scope other k hBound
    rw [lookupLocal?_addComponent, if_neg]
    · exact hBound
    · rintro ⟨rfl, rfl, -⟩
      cases hFree.symm.trans hBound
  · intro k hKnows
    rcases knows_addComponent hKnows with hKnown | rfl
    · exact .inl hKnown
    · exact .inr ⟨Nat.le_refl _, Nat.le_refl _⟩

/-- A setup statement grows the session by definitions in its own frames. -/
theorem writes_run (resolve : Resolver) (context : Context) (session : Session)
    (statement : Setup) :
    Writes context.scopes session (statement.run resolve context session).2 := by
  cases statement with
  | useFunctions group => exact writes_foldl_defineFunction _ _ _
  | importComponent name path location =>
      unfold Setup.run
      dsimp only
      rw [Setup.defineComponent_eq]
      split
      · exact .refl _ _
      · next hFree =>
        cases importSource resolve context.file path location with
        | error e => exact .refl _ _
        | ok found =>
            apply writes_addComponent
            simpa using hFree
  | linkAsset kind path => exact writes_registerAsset _ _ _ _
  | declare f => exact writes_defineFunction _ _ _

end Session

end HtmlTemplate
