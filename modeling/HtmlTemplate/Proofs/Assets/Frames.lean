import HtmlTemplate.Proofs.Assets.Events
import HtmlTemplate.Proofs.Session.Soundness

/-! Where files are registered. In a session of one page the first frame of either kind of
files is that of the page, and all other frames are empty and lead to it. Files are
therefore registered at the page, whoever asks for it, and no component has any. -/
namespace HtmlTemplate

namespace ScopeArena

variable {α : Type} {arena : ScopeArena α} {scope : Nat}

/-- The frames of one page: the first stands alone, every other is empty and chained to an
earlier one. -/
structure Paged (arena : ScopeArena α) : Prop where
  lone : arena.Lone 0
  chained : ∀ scope, 0 < scope → scope < arena.size → ∃ outer, arena.Chained scope outer

theorem paged_start : ((empty : ScopeArena α).alloc none).1.Paged where
  lone := lone_alloc empty
  chained scope hPos hOpen := by
    rw [size_alloc] at hOpen
    exact absurd hOpen (Nat.not_lt.mpr hPos)

/-- All frames lead to the first. -/
theorem Paged.root_eq (h : arena.Paged) (hOpen : scope < arena.size) : arena.root scope = 0 := by
  induction scope using Nat.strongRecOn with
  | ind scope ih =>
      rw [root]
      rcases Nat.eq_zero_or_pos scope with rfl | hPos
      · rw [h.lone.2]
      · obtain ⟨outer, hChained⟩ := h.chained scope hPos hOpen
        simp only [hChained.parent?_eq, hChained.outer_lt, ↓reduceIte]
        exact ih outer hChained.outer_lt (Nat.lt_trans hChained.outer_lt hOpen)

theorem Paged.alloc (h : arena.Paged) {outer : Nat} (hOuter : outer < arena.size) :
    (arena.alloc (some outer)).1.Paged where
  lone := h.lone.writes ((Opens.alloc arena (some outer)).writes 0)
  chained scope hPos hOpen := by
    rw [size_alloc] at hOpen
    rcases Nat.lt_succ_iff_lt_or_eq.mp hOpen with hOld | rfl
    · obtain ⟨other, hChained⟩ := h.chained scope hPos hOld
      exact ⟨other, hChained.opens (.alloc arena (some outer))⟩
    · exact ⟨outer, chained_alloc arena hOuter⟩

theorem Paged.define (h : arena.Paged) (name : String) (value : α) :
    (arena.define 0 name value).Paged where
  lone := h.lone.writes (writes_define 0 arena name value)
  chained scope hPos hOpen := by
    rw [size_define] at hOpen
    obtain ⟨outer, hChained⟩ := h.chained scope hPos hOpen
    exact ⟨outer, hChained.writes (writes_define 0 arena name value) (Nat.ne_of_gt hPos)⟩

/-- Every frame but the first is empty. -/
theorem Paged.entries_eq (h : arena.Paged) (hPos : 0 < scope) (hOpen : scope < arena.size) :
    arena.entries scope = [] := by
  obtain ⟨outer, hChained⟩ := h.chained scope hPos hOpen
  exact hChained.entries_eq

/-- The bindings of paths to themselves. -/
def listing (paths : List String) : List (String × String) :=
  paths.map fun path => (path, path)

/-- A path that is bound again keeps its place. -/
theorem bind_listing (path : String) (paths : List String) :
    Frame.bind path path (listing paths) =
      listing (if path ∈ paths then paths else paths ++ [path]) := by
  induction paths with
  | nil => rfl
  | cons first rest ih =>
      unfold listing at ih ⊢
      simp only [List.map_cons, Frame.bind, List.mem_cons]
      by_cases hFirst : first = path
      · simp [hFirst]
      · simp only [hFirst, ↓reduceIte, ih, Ne.symm hFirst, false_or]
        split <;> rfl

theorem eraseDups_filter (p : String → Bool) (paths : List String) :
    (paths.filter p).eraseDups = paths.eraseDups.filter p := by
  induction hLength : paths.length using Nat.strongRecOn generalizing paths with
  | ind length ih =>
      subst hLength
      cases paths with
      | nil => rfl
      | cons path rest =>
          have hShorter := List.length_filter_le (fun other => !other == path) rest
          have hRest := ih _ (Nat.lt_succ_of_le hShorter) _ rfl
          rw [List.eraseDups_cons]
          by_cases hPath : p path
          · rw [List.filter_cons_of_pos hPath, List.filter_cons_of_pos hPath, List.eraseDups_cons,
              ← hRest, List.filter_filter, List.filter_filter]
            simp only [Bool.and_comm]
          · rw [List.filter_cons_of_neg hPath, List.filter_cons_of_neg hPath, ← hRest,
              List.filter_filter]
            -- what passes the filter is not the path that does not
            congr 1
            refine List.filter_congr fun other _ => ?_
            by_cases hOther : other = path
            · simp [hOther, hPath]
            · simp [hOther]

theorem eraseDups_removeAll (paths past : List String) :
    (paths.removeAll past).eraseDups = paths.eraseDups.removeAll past :=
  eraseDups_filter _ paths

/-- What two lists of paths come to together depends on what each of them comes to. -/
theorem eraseDups_append_congr {past paths first second : List String}
    (hPast : past.eraseDups = first.eraseDups) (hPaths : paths.eraseDups = second.eraseDups) :
    (past ++ paths).eraseDups = (first ++ second).eraseDups := by
  have hSame (path : String) : path ∈ past ↔ path ∈ first := by
    rw [← List.mem_eraseDups, hPast, List.mem_eraseDups]
  have hRemoved : second.eraseDups.removeAll past = second.eraseDups.removeAll first := by
    unfold List.removeAll
    simp only [List.elem_eq_contains, List.contains_eq_mem, hSame]
  calc (past ++ paths).eraseDups
    _ = past.eraseDups ++ paths.eraseDups.removeAll past := by
      rw [List.eraseDups_append, eraseDups_removeAll]
    _ = first.eraseDups ++ second.eraseDups.removeAll first := by rw [hPast, hPaths, hRemoved]
    _ = (first ++ second).eraseDups := by rw [List.eraseDups_append, eraseDups_removeAll]

end ScopeArena

/-- The frame of a template for the files of a kind. -/
def Scopes.assets (scopes : Scopes) : AssetKind → Nat
  | .stylesheet => scopes.stylesheets
  | .script => scopes.scripts

namespace Session

/-- The frames for the files of a kind. -/
def assets (session : Session) : AssetKind → ScopeArena String
  | .stylesheet => session.stylesheets
  | .script => session.scripts

variable {session after : Session} {scopes : Scopes} {past : List Event}

theorem Holds.assets (h : session.Holds scopes) (kind : AssetKind) :
    scopes.assets kind < (session.assets kind).size := by
  cases kind with
  | stylesheet => exact h.stylesheets
  | script => exact h.scripts

/-- A session of one page in which some things have happened: the page lists the files that
have been registered, and the frames of components are open and not those of the page. -/
structure Keeps (session : Session) (past : List Event) : Prop where
  paged : ∀ kind, (session.assets kind).Paged
  listed : ∀ kind, (session.assets kind).entries 0 =
    ScopeArena.listing (registeredPaths kind past).eraseDups
  housed : ∀ k, session.Knows k → session.Holds k.scopes ∧ ∀ kind, 0 < k.scopes.assets kind

theorem keeps_start (limit : Nat) : (Session.start limit).pageScopes.1.Keeps [] where
  paged kind := by
    cases kind with
    | stylesheet => exact ScopeArena.paged_start
    | script => exact ScopeArena.paged_start
  listed kind := by
    cases kind with
    | stylesheet => rfl
    | script => rfl
  housed k hKnows := by
    have hKnown := ((Session.start limit).opens_pageScopes.knows_iff k).mp hKnows
    obtain ⟨scope, name, hBound⟩ := hKnown
    cases hBound

/-- What leaves files and components alone keeps what has been registered. -/
theorem Keeps.of_eq (h : session.Keeps past) (hAssets : after.assets = session.assets)
    (hComponents : ∀ k, after.Knows k → session.Knows k) (hGrows : session.Grows after) :
    after.Keeps past where
  paged kind := hAssets ▸ h.paged kind
  listed kind := hAssets ▸ h.listed kind
  housed k hKnows := by
    obtain ⟨hHolds, hApart⟩ := h.housed k (hComponents k hKnows)
    exact ⟨hHolds.grows hGrows, hApart⟩

theorem Keeps.enter (h : session.Keeps past) : session.enter.Keeps past :=
  h.of_eq rfl (fun k => (session.opens_enter.knows_iff k).mp) session.opens_enter.grows

theorem Keeps.leave (h : session.Keeps past) : session.leave.Keeps past :=
  h.of_eq rfl (fun k => (session.opens_leave.knows_iff k).mp) session.opens_leave.grows

theorem Keeps.blockScopes (h : session.Keeps past) (outer : Scopes) :
    (session.blockScopes outer).1.Keeps past :=
  h.of_eq (funext fun kind => by cases kind <;> rfl)
    (fun k => ((session.opens_blockScopes outer).knows_iff k).mp)
    (session.opens_blockScopes outer).grows

theorem Keeps.defineFunctions (h : session.Keeps past) (fs : List Function) :
    (fs.foldl (Setup.defineFunction scopes) session).Keeps past := by
  induction fs generalizing session with
  | nil => exact h
  | cons f rest ih =>
      have hGrows := (writes_defineFunction scopes session f).toGrows
      refine ih (h.of_eq ?_ (fun k hKnows => hKnows) hGrows)
      funext kind
      cases kind <;> rfl

/-- Registering a file writes to the root of the frames of its kind and to nothing else. -/
theorem assets_registerAsset (scopes : Scopes) (session : Session) (path : String)
    (kind other : AssetKind) : (Setup.registerAsset scopes session path kind).assets other =
      if kind = other then
        (session.assets kind).define ((session.assets kind).root (scopes.assets kind)) path path
      else session.assets other := by
  cases kind with
  | stylesheet => cases other <;> rfl
  | script => cases other <;> rfl

theorem knows_registerAsset {path : String} {kind : AssetKind} {k : Component}
    (h : (Setup.registerAsset scopes session path kind).Knows k) : session.Knows k := by
  cases kind with
  | stylesheet => exact h
  | script => exact h

/-- A file that is registered anywhere is listed at the page, behind those before it. -/
theorem Keeps.registerAsset (h : session.Keeps past) (hHolds : session.Holds scopes)
    (path : String) (kind : AssetKind) :
    (Setup.registerAsset scopes session path kind).Keeps (past ++ [.registered kind path]) where
  paged other := by
    rw [assets_registerAsset]
    split
    · rw [(h.paged kind).root_eq (hHolds.assets kind)]
      exact (h.paged kind).define path path
    · exact h.paged other
  listed other := by
    -- the root of the frame is that of the page, whose list the path joins if it is new
    rw [assets_registerAsset, registeredPaths_append]
    split
    · next hKind =>
      subst hKind
      have hPath : registeredPaths kind [.registered kind path] = [path] := by
        simp [registeredPaths, Event.path?]
      rw [(h.paged kind).root_eq (hHolds.assets kind),
        ScopeArena.entries_define_self (h.paged kind).lone.1, h.listed kind,
        ScopeArena.bind_listing, hPath, ScopeArena.eraseDups_append_singleton]
    · next hKind =>
      have hNone : registeredPaths other [.registered kind path] = [] := by
        simp [registeredPaths, Event.path?, hKind]
      rw [hNone, List.append_nil]
      exact h.listed other
  housed k hKnows := by
    obtain ⟨hFrames, hApart⟩ := h.housed k (knows_registerAsset hKnows)
    exact ⟨hFrames.grows (writes_registerAsset scopes session path kind).toGrows, hApart⟩

theorem assets_addComponent (session : Session) (importer : Scopes) (name : String)
    (found : Imported) (kind : AssetKind) : (session.addComponent importer name found).assets kind =
      ((session.assets kind).alloc (some (importer.assets kind))).1 := by
  cases kind with
  | stylesheet => rfl
  | script => rfl

/-- An imported component gets empty frames that lead to the page. -/
theorem Keeps.addComponent (h : session.Keeps past) (hHolds : session.Holds scopes) (name : String)
    (found : Imported) (hFree : session.components.lookupLocal? scopes.components name = none) :
    (session.addComponent scopes name found).Keeps past where
  paged kind := by
    rw [assets_addComponent]
    exact (h.paged kind).alloc (hHolds.assets kind)
  listed kind := by
    rw [assets_addComponent, ScopeArena.entries_alloc]
    exact h.listed kind
  housed k hKnows := by
    rcases knows_addComponent hKnows with hKnown | rfl
    · obtain ⟨hFrames, hApart⟩ := h.housed k hKnown
      exact ⟨hFrames.grows (writes_addComponent scopes session name found hFree).toGrows, hApart⟩
    · refine ⟨session.holds_importedComponent scopes name found, ?_⟩
      intro kind
      have hPage := (h.paged kind).lone.1
      cases kind with
      | stylesheet => exact hPage
      | script => exact hPage

/-- A setup statement registers its own file and no other. -/
theorem Keeps.run (h : session.Keeps past) {context : Context}
    (hHolds : session.Holds context.scopes) (resolve : Resolver) (statement : Setup) :
    (statement.run resolve context session).2.Keeps (past ++ statement.events) := by
  cases statement with
  | useFunctions group =>
      simp only [Setup.events, List.append_nil]
      exact h.defineFunctions _
  | declare f =>
      simp only [Setup.events, List.append_nil]
      exact h.defineFunctions [f]
  | linkAsset kind path => exact h.registerAsset hHolds path kind
  | importComponent name path location =>
      simp only [Setup.events, List.append_nil]
      unfold Setup.run
      dsimp only
      rw [Setup.defineComponent_eq]
      split
      · exact h
      · next hFree =>
        cases importSource resolve context.file path location with
        | error e => exact h
        | ok found => exact h.addComponent hHolds name found (by simpa using hFree)

/-- The files of a kind in the frame of a template. -/
def paths (session : Session) (scopes : Scopes) (kind : AssetKind) : List String :=
  ((session.assets kind).entries (scopes.assets kind)).map Prod.snd

/-- The page has all files that have been registered. -/
theorem Keeps.paths_eq (h : session.Keeps past) {kind : AssetKind}
    (hPage : scopes.assets kind = 0) :
    session.paths scopes kind = (registeredPaths kind past).eraseDups := by
  rw [paths, hPage, h.listed kind, ScopeArena.listing, List.map_map]
  exact List.map_id _

/-- A component has none. -/
theorem Keeps.paths_eq_nil (h : session.Keeps past) {k : Component} (hKnows : session.Knows k)
    (kind : AssetKind) : session.paths k.scopes kind = [] := by
  obtain ⟨hHolds, hApart⟩ := h.housed k hKnows
  rw [paths, (h.paged kind).entries_eq (hApart kind) (hHolds.assets kind)]
  rfl

end Session

/-- A template links the files in its own frames. -/
theorem Rendering.link_eq_mapError (r : Rendering) (session : Session) (html : List Char) :
    r.link session html =
      (linkAssets html (session.paths r.context.scopes .stylesheet)
        (session.paths r.context.scopes .script)).mapError
        fun e => .runtime (.missingHead e) ⟨r.context.file, 1, 1⟩ := by
  unfold link
  dsimp only [Session.paths, Session.assets, Scopes.assets]
  split <;> next found => rw [found]; rfl

end HtmlTemplate
