import HtmlTemplate.Proofs.Session.Completion

/-! What rendering leaves as it was. A component whose preamble has been carried out
keeps its frames as they are, although its preamble is carried out again at each use, and
the frames of blocks are never written to. -/
namespace HtmlTemplate.Session

variable {resolve : Resolver} {session after last : Session} {k : Component}

/-- The frames of a component hold all that its preamble defines. -/
structure Complete (resolve : Resolver) (session : Session) (k : Component) : Prop where
  imported : ∀ name, k.source.imported? resolve name =
    (session.components.lookupLocal? k.scopes.components name).map fun l => .ok l.source
  declared : ∀ name,
    session.functions.lookupLocal? k.scopes.functions name = k.source.function? name

/-- A preamble that has succeeded has completed its component. -/
theorem Carried.complete {result : Except RenderError Unit × Session}
    (h : Carried resolve session k [] k.source.preamble.1 [] result)
    (hOwns : session.Owns resolve k) (hOk : result.1 = .ok ()) : result.2.Complete resolve k where
  imported name := by
    obtain ⟨seen, hDone⟩ := h.progress hOk
    by_cases hName : name ∈ seen
    · obtain ⟨l, hBound⟩ := hDone.bound name hName
      rw [hBound]
      exact h.owns.imported name l hBound
    · have hNone : k.source.imported? resolve name = none := hDone.ahead name hName
      cases hBound : result.2.components.lookupLocal? k.scopes.components name with
      | none => exact hNone
      | some l => cases hNone.symm.trans (h.owns.imported name l hBound)
  declared name := by
    rw [h.functions hOk name]
    show (k.source.function? name).or _ = _
    cases hFound : k.source.function? name with
    | some f => rfl
    | none =>
        rw [Option.none_or]
        cases hBound : session.functions.lookupLocal? k.scopes.functions name with
        | none => rfl
        | some f =>
            obtain ⟨g, hg, hName⟩ := hOwns.declared name f hBound
            have hNot := List.find?_eq_none.mp hFound g (List.mem_reverse.mpr hg)
            exact absurd (decide_eq_true hName) hNot

/-- The preamble of a complete component succeeds whenever it is carried out. -/
theorem Complete.outcomes_eq_ok (h : session.Complete resolve k) :
    Setup.outcomes resolve k.file [] k.source.preamble.1 = .ok () := by
  apply Setup.outcomes_eq_ok
  intro name _ result hResult
  have hBound := (h.imported name).symm.trans hResult
  obtain ⟨l, -, hFound⟩ := Option.map_eq_some_iff.mp hBound
  exact ⟨l.source, hFound.symm⟩

/-- A complete component is so in every session whose frames of it hold the same. -/
theorem Complete.of_entries (h : session.Complete resolve k)
    (hComponents : after.components.entries k.scopes.components =
      session.components.entries k.scopes.components)
    (hFunctions : after.functions.entries k.scopes.functions =
      session.functions.entries k.scopes.functions) : after.Complete resolve k where
  imported name := by
    rw [ScopeArena.lookupLocal?_congr hComponents]
    exact h.imported name
  declared name := by
    rw [ScopeArena.lookupLocal?_congr hFunctions]
    exact h.declared name

/-- A session that has grown by rendering: complete components have stayed complete, and
the frames of blocks are as they were. -/
structure Evolves (resolve : Resolver) (session after : Session) : Prop extends
    session.Grows after where
  complete : ∀ k, session.Knows k → session.Complete resolve k → after.Complete resolve k
  components_chained : ∀ scope outer, session.components.Chained scope outer →
    (∀ k, session.Knows k → k.scopes.components ≠ scope) → after.components.Chained scope outer
  functions_chained : ∀ scope outer, session.functions.Chained scope outer →
    (∀ k, session.Knows k → k.scopes.functions ≠ scope) → after.functions.Chained scope outer

theorem Opens.refl (session : Session) : session.Opens session :=
  ⟨.refl _, .refl _, .refl _, .refl _, rfl⟩

theorem Opens.evolves (resolve : Resolver) (h : session.Opens after) :
    session.Evolves resolve after where
  toGrows := h.grows
  complete _ _ hComplete :=
    hComplete.of_entries (h.components.entries_eq _) (h.functions.entries_eq _)
  components_chained _ _ hChained _ := hChained.opens h.components
  functions_chained _ _ hChained _ := hChained.opens h.functions

theorem Evolves.refl (resolve : Resolver) (session : Session) : session.Evolves resolve session :=
  (Opens.refl session).evolves resolve

theorem Evolves.trans (h : session.Evolves resolve after) (hNext : after.Evolves resolve last) :
    session.Evolves resolve last where
  toGrows := h.toGrows.trans hNext.toGrows
  complete k hKnows hComplete :=
    hNext.complete k (h.toGrows.knows hKnows) (h.complete k hKnows hComplete)
  components_chained scope outer hChained hFree := by
    apply hNext.components_chained scope outer (h.components_chained scope outer hChained hFree)
    intro k hKnows hFrame
    rcases h.fresh k hKnows with hKnown | ⟨hLater, -⟩
    · exact hFree k hKnown hFrame
    · exact absurd hChained.lt_size (Nat.not_lt.mpr (hFrame ▸ hLater))
  functions_chained scope outer hChained hFree := by
    apply hNext.functions_chained scope outer (h.functions_chained scope outer hChained hFree)
    intro k hKnows hFrame
    rcases h.fresh k hKnows with hKnown | ⟨-, hLater⟩
    · exact hFree k hKnown hFrame
    · exact absurd hChained.lt_size (Nat.not_lt.mpr (hFrame ▸ hLater))

/-- Carrying out the preamble of a component leaves everything else as it was. -/
theorem Carried.evolves {result : Except RenderError Unit × Session}
    (h : Carried resolve session k [] k.source.preamble.1 [] result)
    (hOwns : session.Owns resolve k) : session.Evolves resolve result.2 where
  toGrows := h.writes.toGrows
  complete l hOther hComplete := by
    by_cases hSame : l = k
    · subst hSame
      exact h.complete hOwns (h.outcome_eq.trans hComplete.outcomes_eq_ok)
    · apply hComplete.of_entries
      · apply h.writes.components.entries_eq
        exact fun hShared => hSame (hOwns.alone l hOther (.inl hShared))
      · apply h.writes.functions.entries_eq
        exact fun hShared => hSame (hOwns.alone l hOther (.inr hShared))
  components_chained _ _ hChained _ :=
    hChained.writes h.writes.components (hChained.ne_of_lone hOwns.components)
  functions_chained _ _ hChained _ :=
    hChained.writes h.writes.functions (hChained.ne_of_lone hOwns.functions)

/-- A session that has evolved in the midst of templates that own their frames: they still own
them, and those that were complete still are. -/
structure Advances (resolve : Resolver) (session after : Session) : Prop extends
    session.Evolves resolve after where
  owned : ∀ k, session.Owns resolve k → after.Owns resolve k ∧
    (session.Complete resolve k → after.Complete resolve k)

theorem Opens.advances (resolve : Resolver) (h : session.Opens after) :
    session.Advances resolve after where
  toEvolves := h.evolves resolve
  owned _ hOwns := ⟨hOwns.opens h, fun hComplete =>
    hComplete.of_entries (h.components.entries_eq _) (h.functions.entries_eq _)⟩

theorem Advances.refl (resolve : Resolver) (session : Session) :
    session.Advances resolve session :=
  (Opens.refl session).advances resolve

theorem Advances.trans (h : session.Advances resolve after) (hNext : after.Advances resolve last) :
    session.Advances resolve last where
  toEvolves := h.toEvolves.trans hNext.toEvolves
  owned k hOwns := by
    obtain ⟨hMiddle, hComplete⟩ := h.owned k hOwns
    obtain ⟨hLast, hComplete'⟩ := hNext.owned k hMiddle
    exact ⟨hLast, hComplete' ∘ hComplete⟩

/-- Frames that are written to by nobody hold what they held. -/
theorem Owns.of_entries (h : session.Owns resolve k) (hGrows : session.Grows after)
    (hComponents : after.components.Lone k.scopes.components)
    (hFunctions : after.functions.Lone k.scopes.functions)
    (hComponentsEq : after.components.entries k.scopes.components =
      session.components.entries k.scopes.components)
    (hFunctionsEq : after.functions.entries k.scopes.functions =
      session.functions.entries k.scopes.functions) : after.Owns resolve k where
  holds := h.holds.grows hGrows
  components := hComponents
  functions := hFunctions
  alone _ hKnows := h.alone_grows hGrows hKnows
  imported name l hBound := by
    rw [ScopeArena.lookupLocal?_congr hComponentsEq] at hBound
    exact h.imported name l hBound
  declared name f hBound := by
    rw [ScopeArena.lookupLocal?_congr hFunctionsEq] at hBound
    exact h.declared name f hBound

/-- Carrying out the preamble of a component leaves all other templates their frames. -/
theorem Carried.advances {result : Except RenderError Unit × Session}
    (h : Carried resolve session k [] k.source.preamble.1 [] result)
    (hSound : session.Sound resolve) (hKnows : session.Knows k) :
    session.Advances resolve result.2 where
  toEvolves := h.evolves (hSound.owns hKnows)
  owned l hOwns := by
    by_cases hSame : k = l
    · subst hSame
      exact ⟨h.owns, fun hComplete =>
        h.complete hOwns (h.outcome_eq.trans hComplete.outcomes_eq_ok)⟩
    · have hComponents := h.writes.components.entries_eq l.scopes.components
        fun hShared => hSame (hOwns.alone k hKnows (.inl hShared.symm))
      have hFunctions := h.writes.functions.entries_eq l.scopes.functions
        fun hShared => hSame (hOwns.alone k hKnows (.inr hShared.symm))
      exact ⟨hOwns.of_entries h.writes.toGrows (hOwns.components.writes h.writes.components)
        (hOwns.functions.writes h.writes.functions) hComponents hFunctions,
        fun hComplete => hComplete.of_entries hComponents hFunctions⟩

/-- The frames that a component and the blocks in it are rendered in. -/
inductive Within (session : Session) (k : Component) : Scopes → Prop where
  | own : Within session k k.scopes
  | block {outer inner : Scopes} (hOuter : Within session k outer)
      (hComponents : session.components.Chained inner.components outer.components)
      (hFunctions : session.functions.Chained inner.functions outer.functions)
      (hFree : ∀ l, session.Knows l →
        l.scopes.components ≠ inner.components ∧ l.scopes.functions ≠ inner.functions) :
      Within session k inner

theorem Within.evolves {scopes : Scopes} (h : session.Within k scopes)
    (hEvolves : session.Evolves resolve after) : after.Within k scopes := by
  induction h with
  | own => exact .own
  | block hOuter hComponents hFunctions hFree ih =>
      refine .block ih
        (hEvolves.components_chained _ _ hComponents fun l hKnows => (hFree l hKnows).1)
        (hEvolves.functions_chained _ _ hFunctions fun l hKnows => (hFree l hKnows).2) ?_
      intro l hKnows
      rcases hEvolves.fresh l hKnows with hKnown | ⟨hLater, hLater'⟩
      · exact hFree l hKnown
      · exact ⟨Nat.ne_of_gt (Nat.lt_of_lt_of_le hComponents.lt_size hLater),
          Nat.ne_of_gt (Nat.lt_of_lt_of_le hFunctions.lt_size hLater')⟩

/-- In a block of a component, names mean what they mean in the component itself. -/
theorem Within.component?_eq {scopes : Scopes} (h : session.Within k scopes)
    (hOwns : session.Owns resolve k) (name : String) :
    session.component? scopes name =
      session.components.lookupLocal? k.scopes.components name := by
  induction h with
  | own => exact ScopeArena.lookup?_of_root _ hOwns.components.2 name
  | block _ hComponents _ _ ih => exact (hComponents.lookup?_eq name).trans ih

theorem Within.function?_eq {scopes : Scopes} (h : session.Within k scopes)
    (hOwns : session.Owns resolve k) (name : String) :
    session.function? scopes name = session.functions.lookupLocal? k.scopes.functions name := by
  induction h with
  | own => exact ScopeArena.lookup?_of_root _ hOwns.functions.2 name
  | block _ _ hFunctions _ ih => exact (hFunctions.lookup?_eq name).trans ih

theorem Within.holds {scopes : Scopes} (h : session.Within k scopes)
    (hOwns : session.Owns resolve k) :
    scopes.components < session.components.size ∧ scopes.functions < session.functions.size := by
  cases h with
  | own => exact ⟨hOwns.components.1, hOwns.functions.1⟩
  | block _ hComponents hFunctions _ => exact ⟨hComponents.lt_size, hFunctions.lt_size⟩

/-- A block that is opened in a component belongs to it. -/
theorem Within.blockScopes {scopes : Scopes} (h : session.Within k scopes)
    (hSound : session.Sound resolve) (hOwns : session.Owns resolve k) :
    (session.blockScopes scopes).1.Within k (session.blockScopes scopes).2 := by
  have hOpens := session.opens_blockScopes scopes
  obtain ⟨hComponents, hFunctions⟩ := h.holds hOwns
  refine .block (h.evolves (hOpens.evolves resolve))
    (ScopeArena.chained_alloc _ hComponents) (ScopeArena.chained_alloc _ hFunctions) ?_
  intro l hOther
  have hFrames := (hSound.canonical l ((hOpens.knows_iff l).mp hOther)).holds
  exact ⟨Nat.ne_of_lt hFrames.components, Nat.ne_of_lt hFrames.functions⟩

end HtmlTemplate.Session
