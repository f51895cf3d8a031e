import HtmlTemplate.Proofs.Session.Rendering

/-! A block beside the markup around it. Next to a session in which the frames of a block
have been opened stands one in which they have not: frames that are opened later have
other numbers there, and what is looked up in the block is looked up around it. All that
is rendered in the one is rendered in the other. -/
namespace HtmlTemplate

/-- The number of a frame where a block has not been opened. -/
def hoistFrame (block outer scope : Nat) : Nat :=
  if scope < block then scope else if scope = block then outer else scope - 1

section

variable {block outer scope other : Nat}

theorem hoistFrame_of_lt (h : scope < block) : hoistFrame block outer scope = scope :=
  if_pos h

theorem hoistFrame_self : hoistFrame block outer block = outer := by
  simp [hoistFrame]

theorem hoistFrame_of_gt (h : block < scope) : hoistFrame block outer scope = scope - 1 := by
  rw [hoistFrame, if_neg (Nat.lt_asymm h), if_neg (Nat.ne_of_gt h)]

theorem hoistFrame_inj (hScope : scope ≠ block) (hOther : other ≠ block) :
    hoistFrame block outer scope = hoistFrame block outer other ↔ scope = other := by
  unfold hoistFrame
  grind

/-- Frames keep their order but for that of the block, which comes before what was opened
later. -/
theorem hoistFrame_lt (hOuter : outer < block) (hOther : other ≠ block) (h : scope < other) :
    hoistFrame block outer scope < hoistFrame block outer other := by
  unfold hoistFrame
  grind

theorem hoistFrame_lt_size {size : Nat} (hBlock : block ≤ size) (hScope : scope ≠ block) :
    hoistFrame block outer scope < size ↔ scope < size + 1 := by
  unfold hoistFrame
  grind

end

namespace ScopeArena

variable {α : Type} {g : α → α} {block outer : Nat} {arena around : ScopeArena α}

/-- Where a name is looked up next that a frame does not hold. -/
def above? (arena : ScopeArena α) (scope : Nat) : Option Nat :=
  (arena.parent? scope).filter (· < scope)

theorem lookup?_eq_or (arena : ScopeArena α) (scope : Nat) (name : String) :
    arena.lookup? scope name = (arena.lookupLocal? scope name).or
      ((arena.above? scope).bind fun parent => arena.lookup? parent name) := by
  rw [lookup?, above?]
  cases arena.lookupLocal? scope name with
  | some value => rfl
  | none =>
      cases arena.parent? scope with
      | none => rfl
      | some parent => by_cases hLess : parent < scope <;> simp [Option.filter, hLess]

theorem above?_alloc (arena : ScopeArena α) (parent : Option Nat) (scope : Nat) :
    (arena.alloc parent).1.above? scope =
      if scope = arena.size then parent.filter (· < arena.size) else arena.above? scope := by
  unfold above?
  rw [parent?_alloc]
  split
  · next h => rw [h]
  · rfl

theorem above?_eq_none_of_le {scope : Nat} (h : arena.size ≤ scope) :
    arena.above? scope = none := by
  unfold above? parent?
  rw [Array.getElem?_eq_none h]
  rfl

/-- Beside an arena with the frame of a block in it stands one without; the values that
correspond to each other there are given by `g`. -/
structure Hoisted (g : α → α) (block outer : Nat) (arena around : ScopeArena α) : Prop where
  size_eq : arena.size = around.size + 1
  chained : arena.Chained block outer
  lookupLocal?_eq : ∀ scope, scope ≠ block → ∀ name,
    around.lookupLocal? (hoistFrame block outer scope) name =
      (arena.lookupLocal? scope name).map g
  above?_eq : ∀ scope, scope ≠ block →
    around.above? (hoistFrame block outer scope) =
      (arena.above? scope).map (hoistFrame block outer)

namespace Hoisted

theorem block_le (h : Hoisted g block outer arena around) : block ≤ around.size := by
  have hBlock := h.chained.lt_size
  rw [h.size_eq] at hBlock
  exact Nat.le_of_lt_succ hBlock

/-- A name means the same in a frame and in the one beside it. -/
theorem lookup?_eq (h : Hoisted g block outer arena around) (scope : Nat) (name : String) :
    around.lookup? (hoistFrame block outer scope) name = (arena.lookup? scope name).map g := by
  induction scope using Nat.strongRecOn with
  | ind scope ih =>
      by_cases hBlock : scope = block
      · subst hBlock
        have hOuter := ih outer h.chained.outer_lt
        rw [hoistFrame_of_lt h.chained.outer_lt] at hOuter
        rw [hoistFrame_self, h.chained.lookup?_eq, hOuter]
      · rw [lookup?_eq_or, lookup?_eq_or, h.lookupLocal?_eq scope hBlock, h.above?_eq scope hBlock]
        cases arena.lookupLocal? scope name with
        | some value => rfl
        | none =>
            cases hAbove : arena.above? scope with
            | none => rfl
            | some parent =>
                have hLess : parent < scope := by
                  simpa using (Option.filter_eq_some_iff.mp hAbove).2
                simpa using ih parent hLess

/-- The next frame to be opened has the number that corresponds. -/
theorem hoistFrame_size (h : Hoisted g block outer arena around) :
    hoistFrame block outer arena.size = around.size := by
  rw [hoistFrame_of_gt h.chained.lt_size, h.size_eq, Nat.add_sub_cancel]

/-- A frame is opened in both. -/
theorem alloc (h : Hoisted g block outer arena around) {parent : Option Nat}
    (hParent : ∀ scope, parent = some scope → scope < arena.size) :
    Hoisted g block outer (arena.alloc parent).1
      (around.alloc (parent.map (hoistFrame block outer))).1 where
  size_eq := by rw [size_alloc, size_alloc, h.size_eq]
  chained := h.chained.opens (.alloc _ _)
  lookupLocal?_eq scope hScope name := by
    rw [(Opens.alloc _ _).lookupLocal?_eq, (Opens.alloc _ _).lookupLocal?_eq]
    exact h.lookupLocal?_eq scope hScope name
  above?_eq scope hScope := by
    have hSize : arena.size ≠ block := Nat.ne_of_gt h.chained.lt_size
    have hNew : hoistFrame block outer scope = around.size ↔ scope = arena.size := by
      rw [← h.hoistFrame_size]
      exact hoistFrame_inj hScope hSize
    rw [above?_alloc, above?_alloc]
    by_cases hLast : scope = arena.size
    · rw [if_pos (hNew.mpr hLast), if_pos hLast]
      cases hFound : parent with
      | none => rfl
      | some outerScope =>
          have hLess := hParent outerScope hFound
          have hHoisted := hoistFrame_lt h.chained.outer_lt hSize hLess
          rw [h.hoistFrame_size] at hHoisted
          simp [Option.filter, hLess, hHoisted]
    · rw [if_neg (fun h => hLast (hNew.mp h)), if_neg hLast]
      exact h.above?_eq scope hScope

/-- A name is defined in both, though not in the block. -/
theorem define (h : Hoisted g block outer arena around) {scope : Nat} (hScope : scope ≠ block)
    (name : String) (value : α) :
    Hoisted g block outer (arena.define scope name value)
      (around.define (hoistFrame block outer scope) name (g value)) where
  size_eq := by rw [size_define, size_define, h.size_eq]
  chained := h.chained.writes (writes_define scope arena name value) hScope.symm
  lookupLocal?_eq other hOther second := by
    have hHere : hoistFrame block outer scope = hoistFrame block outer other ↔ scope = other :=
      hoistFrame_inj hScope hOther
    have hIn : hoistFrame block outer scope < around.size ↔ scope < arena.size := by
      rw [h.size_eq]
      exact hoistFrame_lt_size h.block_le hScope
    simp only [lookupLocal?_define, hHere, hIn, h.lookupLocal?_eq other hOther]
    split <;> rfl
  above?_eq other hOther := by
    unfold above?
    simp only [parent?_define]
    exact h.above?_eq other hOther

/-- So it is where the frame of a block has just been opened, if the values that are
bound correspond to themselves. -/
theorem of_alloc (hValues : ∀ scope name value, arena.lookupLocal? scope name = some value →
      g value = value) (hOuter : outer < arena.size) :
    Hoisted g arena.size outer (arena.alloc (some outer)).1 arena where
  size_eq := size_alloc _ _
  chained := chained_alloc arena hOuter
  lookupLocal?_eq scope hScope name := by
    rw [(Opens.alloc _ _).lookupLocal?_eq]
    rcases Nat.lt_or_gt_of_ne hScope with hBefore | hBehind
    · rw [hoistFrame_of_lt hBefore]
      cases hFound : arena.lookupLocal? scope name with
      | none => rfl
      | some value => exact congrArg some (hValues scope name value hFound).symm
    · rw [hoistFrame_of_gt hBehind, lookupLocal?_eq_none_of_le _ (Nat.le_sub_one_of_lt hBehind),
        lookupLocal?_eq_none_of_le _ (Nat.le_of_lt hBehind)]
      rfl
  above?_eq scope hScope := by
    rw [above?_alloc, if_neg hScope]
    rcases Nat.lt_or_gt_of_ne hScope with hBefore | hBehind
    · rw [hoistFrame_of_lt hBefore]
      cases hFound : arena.above? scope with
      | none => rfl
      | some parent =>
          have hLess : parent < scope := by
            simpa using (Option.filter_eq_some_iff.mp hFound).2
          exact congrArg some (hoistFrame_of_lt (Nat.lt_trans hLess hBefore)).symm
    · rw [hoistFrame_of_gt hBehind, above?_eq_none_of_le (Nat.le_sub_one_of_lt hBehind),
        above?_eq_none_of_le (Nat.le_of_lt hBehind)]
      rfl

end Hoisted

end ScopeArena

/-- Frames as they are numbered where a block has not been opened. -/
def Scopes.hoist (scopes inner outer : Scopes) : Scopes :=
  { scopes with
    components := hoistFrame inner.components outer.components scopes.components
    functions := hoistFrame inner.functions outer.functions scopes.functions }

def Component.hoist (k : Component) (inner outer : Scopes) : Component :=
  { k with scopes := k.scopes.hoist inner outer }

namespace Session

/-- Frames that are open and are not those of a block. -/
structure Outside (session : Session) (inner scopes : Scopes) : Prop extends
    session.Holds scopes where
  components_ne : scopes.components ≠ inner.components
  functions_ne : scopes.functions ≠ inner.functions

/-- Beside a session with the frames of a block in it stands one without. They have the
same assets, and no component is defined in the frames of the block. -/
structure Hoisted (inner outer : Scopes) (session around : Session) : Prop where
  components : ScopeArena.Hoisted (Component.hoist · inner outer) inner.components outer.components
    session.components around.components
  functions : ScopeArena.Hoisted id inner.functions outer.functions session.functions
    around.functions
  stylesheets_eq : session.stylesheets = around.stylesheets
  scripts_eq : session.scripts = around.scripts
  maxDepth_eq : session.maxDepth = around.maxDepth
  outside : ∀ k, session.Knows k → session.Outside inner k.scopes ∧ ServesLast k.tokens

variable {inner outer scopes : Scopes} {session around after : Session}

theorem Outside.grows (h : session.Outside inner scopes) (hGrows : session.Grows after) :
    after.Outside inner scopes :=
  ⟨h.toHolds.grows hGrows, h.components_ne, h.functions_ne⟩

namespace Hoisted

theorem function?_eq (h : Hoisted inner outer session around) (scopes : Scopes) :
    session.function? scopes = around.function? (scopes.hoist inner outer) := by
  funext name
  exact ((h.functions.lookup?_eq scopes.functions name).trans (congrFun Option.map_id _)).symm

theorem component?_eq (h : Hoisted inner outer session around) (scopes : Scopes) (name : String) :
    around.component? (scopes.hoist inner outer) name =
      (session.component? scopes name).map (·.hoist inner outer) :=
  h.components.lookup?_eq scopes.components name

/-- What a session has grown by takes no component into the block. -/
theorem outside_grows (h : Hoisted inner outer session around) (hGrows : session.Grows after)
    {k : Component} (hKnows : session.Knows k) :
    after.Outside inner k.scopes ∧ ServesLast k.tokens :=
  ⟨(h.outside k hKnows).1.grows hGrows, (h.outside k hKnows).2⟩

theorem enter (h : Hoisted inner outer session around) :
    Hoisted inner outer session.enter around.enter :=
  ⟨h.components, h.functions, h.stylesheets_eq, h.scripts_eq, h.maxDepth_eq,
    fun _ hKnows => h.outside_grows session.opens_enter.grows hKnows⟩

theorem leave (h : Hoisted inner outer session around) :
    Hoisted inner outer session.leave around.leave :=
  ⟨h.components, h.functions, h.stylesheets_eq, h.scripts_eq, h.maxDepth_eq,
    fun _ hKnows => h.outside_grows session.opens_leave.grows hKnows⟩

/-- A further block is opened in both, within frames that are open. -/
theorem blockScopes (h : Hoisted inner outer session around) (hHolds : session.Holds scopes) :
    Hoisted inner outer (session.blockScopes scopes).1
      (around.blockScopes (scopes.hoist inner outer)).1 := by
  have hOpens := session.opens_blockScopes scopes
  refine ⟨?_, ?_, h.stylesheets_eq, h.scripts_eq, h.maxDepth_eq, ?_⟩
  · exact h.components.alloc (by rintro _ ⟨⟩; exact hHolds.components)
  · exact h.functions.alloc (by rintro _ ⟨⟩; exact hHolds.functions)
  · intro k hKnows
    exact h.outside_grows hOpens.grows ((hOpens.knows_iff k).mp hKnows)

theorem hoist_blockScopes (h : Hoisted inner outer session around) (scopes : Scopes) :
    (around.blockScopes (scopes.hoist inner outer)).2 =
      (session.blockScopes scopes).2.hoist inner outer := by
  have hComponents := h.components.hoistFrame_size
  have hFunctions := h.functions.hoistFrame_size
  unfold Session.blockScopes ScopeArena.alloc Scopes.hoist
  unfold ScopeArena.size at hComponents hFunctions
  dsimp only
  rw [hComponents, hFunctions]

theorem defineFunction (h : Hoisted inner outer session around)
    (hOutside : session.Outside inner scopes) (f : Function) :
    Hoisted inner outer (Setup.defineFunction scopes session f)
      (Setup.defineFunction (scopes.hoist inner outer) around f) := by
  have hGrows := (writes_defineFunction scopes session f).toGrows
  exact ⟨h.components, h.functions.define hOutside.functions_ne f.name f, h.stylesheets_eq,
    h.scripts_eq, h.maxDepth_eq,
    fun _ hKnows => h.outside_grows hGrows hKnows⟩

theorem foldl_defineFunction (h : Hoisted inner outer session around)
    (hOutside : session.Outside inner scopes) (fs : List Function) :
    Hoisted inner outer (fs.foldl (Setup.defineFunction scopes) session)
      (fs.foldl (Setup.defineFunction (scopes.hoist inner outer)) around) := by
  induction fs generalizing session around with
  | nil => exact h
  | cons f rest ih =>
      have hGrows := (writes_defineFunction scopes session f).toGrows
      exact ih (h.defineFunction hOutside f) (hOutside.grows hGrows)

theorem registerAsset (h : Hoisted inner outer session around) (scopes : Scopes) (path : String)
    (kind : AssetKind) :
    Hoisted inner outer (Setup.registerAsset scopes session path kind)
      (Setup.registerAsset (scopes.hoist inner outer) around path kind) := by
  have hGrows := (writes_registerAsset scopes session path kind).toGrows
  cases kind with
  | stylesheet =>
      refine ⟨h.components, h.functions, ?_, h.scripts_eq, h.maxDepth_eq, ?_⟩
      · exact congrArg
          (fun arena : ScopeArena String => arena.define (arena.root scopes.stylesheets) path path)
          h.stylesheets_eq
      · exact fun _ hKnows => h.outside_grows hGrows hKnows
  | script =>
      refine ⟨h.components, h.functions, h.stylesheets_eq, ?_, h.maxDepth_eq, ?_⟩
      · exact congrArg
          (fun arena : ScopeArena String => arena.define (arena.root scopes.scripts) path path)
          h.scripts_eq
      · exact fun _ hKnows => h.outside_grows hGrows hKnows

/-- The component that an import defines corresponds to the one it defines in the other
session. -/
theorem hoist_importedComponent (h : Hoisted inner outer session around) (scopes : Scopes)
    (name : String) (found : Imported) :
    around.importedComponent (scopes.hoist inner outer) name found =
      (session.importedComponent scopes name found).hoist inner outer := by
  have hComponents := h.components.hoistFrame_size
  have hFunctions := h.functions.hoistFrame_size
  unfold Session.importedComponent Session.componentScopes Session.openScopes ScopeArena.alloc
    Component.hoist Scopes.hoist
  unfold ScopeArena.size at hComponents hFunctions
  dsimp only
  rw [hComponents, hFunctions, h.stylesheets_eq, h.scripts_eq]

/-- A component is imported in both, though not into the block. -/
theorem addComponent (h : Hoisted inner outer session around)
    (hOutside : session.Outside inner scopes) {name : String} {found : Imported}
    (hLast : ServesLast found.tokens)
    (hFree : session.components.lookupLocal? scopes.components name = none) :
    Hoisted inner outer (session.addComponent scopes name found)
      (around.addComponent (scopes.hoist inner outer) name found) := by
  have hGrows := (writes_addComponent scopes session name found hFree).toGrows
  refine ⟨?_, ?_, ?_, ?_, h.maxDepth_eq, ?_⟩
  · unfold Session.addComponent
    rw [h.hoist_importedComponent scopes name found]
    exact (h.components.alloc (by rintro _ ⟨⟩)).define hOutside.components_ne name _
  · exact h.functions.alloc (by rintro _ ⟨⟩)
  · exact congrArg (fun arena : ScopeArena String => (arena.alloc (some scopes.stylesheets)).1)
      h.stylesheets_eq
  · exact congrArg (fun arena : ScopeArena String => (arena.alloc (some scopes.scripts)).1)
      h.scripts_eq
  · intro k hKnows
    rcases knows_addComponent hKnows with hKnown | rfl
    · exact h.outside_grows hGrows hKnown
    · exact ⟨⟨session.holds_importedComponent scopes name found,
        Nat.ne_of_gt h.components.chained.lt_size, Nat.ne_of_gt h.functions.chained.lt_size⟩, hLast⟩

/-- A setup statement is carried out in both, though not in the block. -/
theorem run (h : Hoisted inner outer session around) (resolve : Resolver) {c : Context}
    (hOutside : session.Outside inner c.scopes) (statement : Setup) :
    (statement.run resolve c session).1 =
      (statement.run resolve { c with scopes := c.scopes.hoist inner outer } around).1 ∧
    Hoisted inner outer (statement.run resolve c session).2
      (statement.run resolve { c with scopes := c.scopes.hoist inner outer } around).2 := by
  cases statement with
  | useFunctions group => exact ⟨rfl, h.foldl_defineFunction hOutside _⟩
  | declare f => exact ⟨rfl, h.defineFunction hOutside f⟩
  | linkAsset kind path => exact ⟨rfl, h.registerAsset c.scopes path kind⟩
  | importComponent name path location =>
      have hTaken := h.components.lookupLocal?_eq c.scopes.components hOutside.components_ne name
      have hSome : (around.components.lookupLocal? (c.scopes.hoist inner outer).components
          name).isSome = (session.components.lookupLocal? c.scopes.components name).isSome :=
        (congrArg Option.isSome hTaken).trans Option.isSome_map
      unfold Setup.run
      dsimp only
      rw [Setup.defineComponent_eq, Setup.defineComponent_eq, hSome]
      split
      · exact ⟨rfl, h⟩
      · next hFree =>
        cases hFound : importSource resolve c.file path location with
        | error e => exact ⟨rfl, h⟩
        | ok found =>
            have hLast := importSource_servesLast hFound
            exact ⟨rfl, h.addComponent hOutside hLast (by simpa using hFree)⟩

/-- So are any number of them. -/
theorem runAll (h : Hoisted inner outer session around) (resolve : Resolver) {c : Context}
    (hOutside : session.Outside inner c.scopes) (statements : List Setup) :
    (Setup.runAll resolve c statements session).1 = (Setup.runAll resolve
      { c with scopes := c.scopes.hoist inner outer } statements around).1 ∧
    Hoisted inner outer (Setup.runAll resolve c statements session).2 (Setup.runAll resolve
      { c with scopes := c.scopes.hoist inner outer } statements around).2 ∧
    session.Grows (Setup.runAll resolve c statements session).2 := by
  induction statements generalizing session around with
  | nil => exact ⟨rfl, h, .refl session⟩
  | cons statement rest ih =>
      have hGrows := (writes_run resolve c session statement).toGrows
      obtain ⟨hResult, hAfter⟩ := h.run resolve hOutside statement
      unfold Setup.runAll
      revert hGrows hResult hAfter
      rcases statement.run resolve c session with ⟨result, after⟩
      rcases statement.run resolve { c with scopes := c.scopes.hoist inner outer } around with
        ⟨_, around'⟩
      rintro hGrows rfl hAfter
      cases result with
      | error e => exact ⟨rfl, hAfter, hGrows⟩
      | ok _ =>
          obtain ⟨hSame, hLast, hMore⟩ := ih hAfter (hOutside.grows hGrows)
          exact ⟨hSame, hLast, hGrows.trans hMore⟩

end Hoisted

end Session

/-- A context as it is where a block has not been opened. -/
def Context.hoist (c : Context) (inner outer : Scopes) : Context :=
  { c with scopes := c.scopes.hoist inner outer }

/-- A rendering in a block beside the same rendering around it. -/
def hoistedCoupling (inner outer : Scopes) : Coupling where
  Sessions p := p.1.Hoisted inner outer p.2
  Later p q := p.1.Grows q.1
  Contexts p c d := c.hoist inner outer = d ∧ p.1.Holds c.scopes
  Components p k l :=
    k.hoist inner outer = l ∧ p.1.Outside inner k.scopes ∧ ServesLast k.tokens
  Cut _ := False
  later_refl p := .refl p.1
  later_trans h hNext := h.trans hNext
  contexts_later hLater h := ⟨h.1, h.2.grows hLater⟩
  components_later hLater h := ⟨h.1, h.2.1.grows hLater, h.2.2⟩
  file_eq := by rintro p c _ ⟨rfl, -⟩; rfl
  bag_eq := by rintro p c _ ⟨rfl, -⟩; rfl
  contexts_withBag h bag := ⟨Context.withBag_congr h.1 bag, h.2⟩
  function?_eq := by
    rintro p c _ hSessions ⟨rfl, -⟩
    exact hSessions.function?_eq c.scopes
  components_found := by
    rintro p c _ hSessions ⟨rfl, -⟩ name
    unfold Context.hoist
    rw [hSessions.component?_eq]
    cases hFound : p.1.component? c.scopes name with
    | none => exact .none
    | some k =>
        obtain ⟨holder, hBound⟩ := p.1.components.exists_of_lookup? hFound
        exact .some ⟨rfl, hSessions.outside k ⟨holder, name, hBound⟩⟩
  blocks := by
    rintro p c _ hSessions ⟨rfl, hHolds⟩
    have hGrows := (p.1.opens_blockScopes c.scopes).grows
    refine ⟨hSessions.blockScopes hHolds, hGrows, ?_, ?_⟩
    · exact congrArg (fun scopes => { c with scopes := scopes })
        (hSessions.hoist_blockScopes c.scopes).symm
    · exact p.1.holds_blockScopes hHolds
  enter hSessions := ⟨hSessions.enter, (Session.opens_enter _).grows⟩
  leave hSessions := ⟨hSessions.leave, (Session.opens_leave _).grows⟩

section

variable {inner outer : Scopes} {resolve : Resolver} {session around : Session}

/-- The assets that are linked are those of the same frames. -/
theorem Session.Hoisted.link_eq (h : session.Hoisted inner outer around) (r : Rendering)
    (html : List Char) :
    r.link session html = (r.withContext (r.context.hoist inner outer)).link around html := by
  unfold Rendering.link
  dsimp only
  rw [h.stylesheets_eq, h.scripts_eq]
  rfl

/-- The same result in sessions that stand beside each other. -/
theorem Session.Hoisted.outcome {α : Type} {left right : Except RenderError α × Session}
    (h : left.1 = right.1 ∧ left.2.Hoisted inner outer right.2 ∧ session.Grows left.2) :
    (hoistedCoupling inner outer).lockstep.Outcome (session, around) (fun _ => True) left
      right := by
  obtain ⟨result, after⟩ := left
  obtain ⟨_, after'⟩ := right
  obtain ⟨rfl, hAfter, hGrows⟩ := h
  cases result with
  | error e => exact .error hAfter hGrows
  | ok _ => exact .ok trivial hAfter hGrows

/-- A component is invoked alike in both sessions. -/
theorem hoisted_components_alike {left right : Nested}
    (hNested : (hoistedCoupling inner outer).lockstep.Alike left right) :
    (hoistedCoupling inner outer).lockstep.ComponentsAlike resolve left right := by
  rintro ⟨session, around⟩ k _ a _ hSessions ⟨rfl, hOutside, hLast⟩ rfl
  have hPrepared := Session.Hoisted.runAll (c := ⟨a, k.scopes, k.file⟩) hSessions resolve hOutside
    k.source.preamble.1
  have hSource : k.source = (k.hoist inner outer).source := rfl
  apply Lockstep.renderComponent_alike_of_preamble hNested hSource hLast (fun _ _ => trivial)
  · exact Session.Hoisted.outcome hPrepared
  · intro after after' hDone _
    rw [hDone] at hPrepared
    exact ⟨rfl, hOutside.toHolds.grows hPrepared.2.2⟩
  · rintro q html r hContext _ hLater _
    refine ⟨?_, fun _ _ => trivial⟩
    have hLinks := Session.Hoisted.link_eq hLater r html
    rw [hContext] at hLinks
    exact hLinks

theorem hoisted_nested_alike (inner outer : Scopes) (resolve : Resolver) (levels : Nat) :
    (hoistedCoupling inner outer).lockstep.Alike (nestedWithin resolve levels)
      (nestedWithin resolve levels) := by
  apply Lockstep.nestedWithin_alike 0
  · intro p c d task other token hSessions _ _
    unfold nestedWithin
    rw [Session.Hoisted.maxDepth_eq hSessions]
    exact .error hSessions ((hoistedCoupling inner outer).lockstep.later_refl p)
  · intro left right hNested
    exact hoisted_components_alike hNested

end

end HtmlTemplate
