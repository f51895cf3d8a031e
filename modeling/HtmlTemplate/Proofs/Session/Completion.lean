import HtmlTemplate.Proofs.Session.Soundness

/-! Carrying out the preamble of a component. How that ends depends on what the template
says and on the resolver alone, and if it succeeds, the frames of the component hold the
same as ever. -/
namespace HtmlTemplate

namespace Setup

/-- The names that a statement imports. -/
def imports : Setup → List String
  | .importComponent name _ _ => [name]
  | _ => []

/-- How a statement ends where the names `seen` have been imported before. -/
def outcome (resolve : Resolver) (file : String) (seen : List String) :
    Setup → Except RenderError Unit
  | .importComponent name path location =>
    if name ∈ seen then .ok ()
    else (importSource resolve file path location).map fun _ => ()
  | _ => .ok ()

/-- How statements end that are carried out one after the other. -/
def outcomes (resolve : Resolver) (file : String) :
    (seen : List String) → List Setup → Except RenderError Unit
  | _, [] => .ok ()
  | seen, statement :: rest =>
    match statement.outcome resolve file seen with
    | .error e => .error e
    | .ok _ => outcomes resolve file (statement.imports ++ seen) rest

variable {resolve : Resolver} {file : String}

/-- A name is imported by the statement at hand, or by a later one. -/
theorem imported?_cons (name : String) (statement : Setup) (rest : List Setup) :
    imported? resolve file name (statement :: rest) =
      match statement with
      | .importComponent other path location =>
        if other = name then some (importSource resolve file path location)
        else imported? resolve file name rest
      | _ => imported? resolve file name rest := by
  cases statement <;> rfl

theorem imported?_cons_of_not_mem {name : String} {statement : Setup}
    (h : name ∉ statement.imports) (rest : List Setup) :
    imported? resolve file name (statement :: rest) = imported? resolve file name rest := by
  rw [imported?_cons]
  cases statement with
  | importComponent other path location =>
      apply if_neg
      rintro rfl
      exact h List.mem_cons_self
  | _ => rfl

/-- Statements succeed if all first imports do. -/
theorem outcomes_eq_ok {seen : List String} {statements : List Setup}
    (h : ∀ name, name ∉ seen → ∀ result, imported? resolve file name statements = some result →
      ∃ found, result = .ok found) :
    outcomes resolve file seen statements = .ok () := by
  induction statements generalizing seen with
  | nil => rfl
  | cons statement rest ih =>
      have hRest : outcomes resolve file (statement.imports ++ seen) rest = .ok () := by
        apply ih
        intro name hName result hResult
        rw [List.mem_append, not_or] at hName
        exact h name hName.2 result ((imported?_cons_of_not_mem hName.1 rest).trans hResult)
      have hFirst : statement.outcome resolve file seen = .ok () := by
        cases statement with
        | importComponent name path location =>
            simp only [outcome]
            split
            · rfl
            · next hName =>
              have hHere : imported? resolve file name
                  (.importComponent name path location :: rest) =
                    some (importSource resolve file path location) := if_pos rfl
              obtain ⟨found, hFound⟩ := h name hName _ hHere
              rw [hFound]
              rfl
        | _ => rfl
      unfold outcomes
      rw [hFirst]
      exact hRest

end Setup

/-- What is imported has been scanned as a template. -/
theorem importSource_servesLast {resolve : Resolver} {file path : String} {location : Location}
    {found : Imported} (h : importSource resolve file path location = .ok found) :
    ServesLast found.tokens := by
  unfold importSource at h
  split at h
  · cases h
  · split at h
    · cases h
    · next tokens hTokens =>
      cases h
      exact Token.scanTemplate_servesLast hTokens

/-- The function that a template defines under a name; the last definition counts. -/
def Imported.function? (found : Imported) (name : String) : Option Function :=
  found.functions.reverse.find? (·.name = name)

namespace Session

variable {resolve : Resolver} {session : Session} {k : Component} {c : Context}
  {seen : List String} {statement : Setup} {rest : List Setup}

/-- In the midst of the preamble of a component: the names `seen` have been imported, and
`rest` is what is left. -/
structure Progress (resolve : Resolver) (session : Session) (k : Component)
    (seen : List String) (rest : List Setup) : Prop where
  bound : ∀ name ∈ seen, ∃ l, session.components.lookupLocal? k.scopes.components name = some l
  ahead : ∀ name, name ∉ seen →
    k.source.imported? resolve name = Setup.imported? resolve k.file name rest
  functions : ∀ f ∈ rest.flatMap Setup.functions, f ∈ k.source.functions

theorem progress_start (resolve : Resolver) (session : Session) (k : Component) :
    session.Progress resolve k [] k.source.preamble.1 :=
  ⟨List.forall_mem_nil _, fun _ _ => rfl, fun _ h => h⟩

/-- A name that a component has bound without having seen it in this preamble is the one
its first import binds. -/
theorem Progress.outcome_of_bound (h : session.Progress resolve k seen (statement :: rest))
    (hOwns : session.Owns resolve k) {name path : String} {location : Location}
    (hStatement : statement = .importComponent name path location)
    {l : Component} (hBound : session.components.lookupLocal? k.scopes.components name = some l) :
    statement.outcome resolve k.file seen = .ok () := by
  subst hStatement
  simp only [Setup.outcome]
  split
  · rfl
  · next hName =>
    have hFirst := hOwns.imported name l hBound
    rw [h.ahead name hName, Setup.imported?_cons] at hFirst
    simp only [↓reduceIte, Option.some.injEq] at hFirst
    rw [hFirst]
    rfl

theorem Progress.not_mem_of_free (h : session.Progress resolve k seen rest) {name : String}
    (hFree : session.components.lookupLocal? k.scopes.components name = none) : name ∉ seen := by
  intro hName
  obtain ⟨l, hBound⟩ := h.bound name hName
  cases hFree.symm.trans hBound

/-- What the statement of a preamble gives does not depend on what the frames of its
component hold already. -/
theorem run_outcome (hOwns : session.Owns resolve k)
    (hScopes : c.scopes = k.scopes) (hFile : c.file = k.file)
    (hProgress : session.Progress resolve k seen (statement :: rest)) :
    (statement.run resolve c session).1 = statement.outcome resolve k.file seen := by
  cases statement with
  | importComponent name path location =>
      unfold Setup.run
      dsimp only
      rw [Setup.defineComponent_eq, hScopes, hFile]
      cases hFound : session.components.lookupLocal? k.scopes.components name with
      | some l => exact (hProgress.outcome_of_bound hOwns rfl hFound).symm
      | none =>
          simp only [Setup.outcome]
          rw [if_neg (hProgress.not_mem_of_free hFound)]
          cases importSource resolve k.file path location <;> rfl
  | _ => rfl

theorem Sound.foldl_defineFunction {scopes : Scopes} {fs : List Function}
    (hSound : session.Sound resolve)
    (hOwner : ∀ f ∈ fs, ∀ k, session.Knows k → k.scopes.functions = scopes.functions →
      ∃ g ∈ k.source.functions, g.name = f.name) :
    (fs.foldl (Setup.defineFunction scopes) session).Sound resolve := by
  induction fs generalizing session with
  | nil => exact hSound
  | cons f rest ih =>
      exact ih (hSound.defineFunction (hOwner f List.mem_cons_self))
        (fun g hg => hOwner g (List.mem_cons_of_mem f hg))

/-- A statement is sound in frames that belong to no component, or to one whose preamble
makes its definitions. -/
theorem Sound.run (hSound : session.Sound resolve) (hHolds : session.Holds c.scopes)
    (hFunctions : ∀ f ∈ statement.functions, ∀ k, session.Knows k →
      k.scopes.functions = c.scopes.functions → ∃ g ∈ k.source.functions, g.name = f.name)
    (hImports : ∀ name path location found, statement = .importComponent name path location →
      session.components.lookupLocal? c.scopes.components name = none →
      importSource resolve c.file path location = .ok found → ∀ k, session.Knows k →
      k.scopes.components = c.scopes.components →
      k.source.imported? resolve name = some (.ok found)) :
    (statement.run resolve c session).2.Sound resolve := by
  cases statement with
  | useFunctions group => exact hSound.foldl_defineFunction hFunctions
  | declare f => exact hSound.defineFunction (hFunctions f List.mem_cons_self)
  | linkAsset kind path => exact hSound.registerAsset c.scopes path kind
  | importComponent name path location =>
      unfold Setup.run
      dsimp only
      rw [Setup.defineComponent_eq]
      cases hFound : session.components.lookupLocal? c.scopes.components name with
      | some l => exact hSound
      | none =>
          cases hImport : importSource resolve c.file path location with
          | error e => exact hSound
          | ok found =>
              exact hSound.addComponent hHolds (importSource_servesLast hImport) hFound
                (hImports name path location found rfl hFound hImport)

/-- Carrying out a statement of its preamble leaves the frames of a component sound. -/
theorem run_sound (hSound : session.Sound resolve) (hOwns : session.Owns resolve k)
    (hScopes : c.scopes = k.scopes) (hFile : c.file = k.file)
    (hProgress : session.Progress resolve k seen (statement :: rest)) :
    (statement.run resolve c session).2.Sound resolve := by
  apply hSound.run
  · rw [hScopes]
    exact hOwns.holds
  · intro f hf l hOther hShared
    cases hOwns.alone l hOther (.inr (hShared.trans (congrArg _ hScopes)))
    exact ⟨f, hProgress.functions f (List.mem_flatMap.mpr ⟨statement, List.mem_cons_self, hf⟩), rfl⟩
  · rintro name path location found rfl hFree hImport l hOther hShared
    rw [hScopes] at hFree hShared
    rw [hFile] at hImport
    cases hOwns.alone l hOther (.inl hShared)
    rw [hProgress.ahead name (hProgress.not_mem_of_free hFree), Setup.imported?_cons]
    simp only [↓reduceIte, hImport]

/-- An import that succeeds leaves its name bound. -/
theorem bound_of_import {name path : String} {location : Location}
    (hFrame : c.scopes.components < session.components.size)
    (hOk : (Setup.defineComponent resolve c session name path location).1 = .ok ()) :
    ∃ l, (Setup.defineComponent resolve c session name path location).2.components.lookupLocal?
      c.scopes.components name = some l := by
  rw [Setup.defineComponent_eq] at hOk ⊢
  split
  · next hBound => exact Option.isSome_iff_exists.mp hBound
  · next hFree =>
    rw [if_neg hFree] at hOk
    cases hImport : importSource resolve c.file path location with
    | error e =>
        rw [hImport] at hOk
        cases hOk
    | ok found =>
        refine ⟨session.importedComponent c.scopes name found, ?_⟩
        dsimp only
        rw [lookupLocal?_addComponent, if_pos ⟨rfl, rfl, Nat.lt_succ_of_lt hFrame⟩]

/-- After a statement has succeeded, its imports have been seen. -/
theorem run_progress (hFrame : c.scopes.components < session.components.size)
    (hScopes : c.scopes = k.scopes)
    (hProgress : session.Progress resolve k seen (statement :: rest))
    (hOk : (statement.run resolve c session).1 = .ok ()) :
    (statement.run resolve c session).2.Progress resolve k (statement.imports ++ seen) rest := by
  have hGrows := (writes_run resolve c session statement).toGrows
  refine ⟨?_, ?_, ?_⟩
  · intro name hName
    rcases List.mem_append.mp hName with hHere | hSeen
    · cases statement with
      | importComponent other path location =>
          cases List.mem_singleton.mp hHere
          rw [← hScopes]
          exact bound_of_import hFrame hOk
      | _ => cases hHere
    · obtain ⟨l, hBound⟩ := hProgress.bound name hSeen
      exact ⟨l, hGrows.kept _ name l hBound⟩
  · intro name hName
    rw [List.mem_append, not_or] at hName
    rw [hProgress.ahead name hName.2, Setup.imported?_cons_of_not_mem hName.1]
  · intro f hf
    exact hProgress.functions f (List.mem_append_right _ hf)

theorem lookupLocal?_defineFunction {scopes : Scopes}
    (hFrame : scopes.functions < session.functions.size) (f : Function) (name : String) :
    (Setup.defineFunction scopes session f).functions.lookupLocal? scopes.functions name =
      if f.name = name then some f else session.functions.lookupLocal? scopes.functions name := by
  unfold Setup.defineFunction
  rw [ScopeArena.lookupLocal?_define]
  simp only [hFrame, true_and, and_true]

theorem lookupLocal?_foldl_defineFunction {scopes : Scopes}
    (hFrame : scopes.functions < session.functions.size) (fs : List Function) (name : String) :
    (fs.foldl (Setup.defineFunction scopes) session).functions.lookupLocal? scopes.functions name =
      (fs.reverse.find? (·.name = name)).or
        (session.functions.lookupLocal? scopes.functions name) := by
  induction fs generalizing session with
  | nil => rfl
  | cons f rest ih =>
      have hGrown := (writes_defineFunction scopes session f).functions_le
      rw [List.foldl_cons, ih (Nat.lt_of_lt_of_le hFrame hGrown),
        lookupLocal?_defineFunction hFrame, List.reverse_cons, List.find?_append]
      by_cases hName : f.name = name
      · simp [hName]
      · simp [hName]

/-- A statement defines its functions and no others. -/
theorem lookupLocal?_run (resolve : Resolver) (hFrame : c.scopes.functions < session.functions.size)
    (statement : Setup) (name : String) :
    (statement.run resolve c session).2.functions.lookupLocal? c.scopes.functions name =
      (statement.functions.reverse.find? (·.name = name)).or
        (session.functions.lookupLocal? c.scopes.functions name) := by
  cases statement with
  | useFunctions group => exact lookupLocal?_foldl_defineFunction hFrame _ name
  | declare f => exact lookupLocal?_foldl_defineFunction hFrame [f] name
  | linkAsset kind path => cases kind <;> rfl
  | importComponent other path location =>
      unfold Setup.run
      dsimp only
      rw [Setup.defineComponent_eq]
      split
      · rfl
      · cases importSource resolve c.file path location with
        | error e => rfl
        | ok found =>
            have hOpens := (session.opens_componentScopes c.scopes).functions
            exact hOpens.lookupLocal?_eq c.scopes.functions name

theorem components_defineFunctions (scopes : Scopes) (fs : List Function) (session : Session) :
    (fs.foldl (Setup.defineFunction scopes) session).components = session.components := by
  induction fs generalizing session with
  | nil => rfl
  | cons f rest ih => exact ih (Setup.defineFunction scopes session f)

/-- A statement binds no component but the one that it imports. -/
theorem lookupLocal?_run_components {name : String} {l : Component}
    (hBound : (statement.run resolve c session).2.components.lookupLocal? c.scopes.components name =
      some l) :
    session.components.lookupLocal? c.scopes.components name = some l ∨
      ∃ path location found, statement = .importComponent name path location ∧
        session.components.lookupLocal? c.scopes.components name = none ∧
        importSource resolve c.file path location = .ok found ∧ l.source = found := by
  cases statement with
  | useFunctions group =>
      refine .inl ?_
      rwa [Setup.run, components_defineFunctions] at hBound
  | declare f => exact .inl hBound
  | linkAsset kind path => cases kind <;> exact .inl hBound
  | importComponent other path location =>
      rw [Setup.run, Setup.defineComponent_eq] at hBound
      split at hBound
      · exact .inl hBound
      · next hFree =>
        cases hImport : importSource resolve c.file path location with
        | error e =>
            rw [hImport] at hBound
            exact .inl hBound
        | ok found =>
            rw [hImport] at hBound
            dsimp only at hBound
            rw [lookupLocal?_addComponent] at hBound
            split at hBound
            · next hHere =>
              obtain ⟨-, rfl, -⟩ := hHere
              cases hBound
              exact .inr ⟨path, location, found, rfl, by simpa using hFree, hImport, rfl⟩
            · exact .inl hBound

/-- Carrying out a statement of its preamble leaves a component its own frames. -/
theorem run_owns (hOwns : session.Owns resolve k) (hScopes : c.scopes = k.scopes)
    (hFile : c.file = k.file) (hProgress : session.Progress resolve k seen (statement :: rest)) :
    (statement.run resolve c session).2.Owns resolve k where
  holds := hOwns.holds.grows (writes_run resolve c session statement).toGrows
  components := hOwns.components.writes (writes_run resolve c session statement).components
  functions := hOwns.functions.writes (writes_run resolve c session statement).functions
  alone l hKnows := hOwns.alone_grows (writes_run resolve c session statement).toGrows hKnows
  imported name l hBound := by
    rw [← hScopes] at hBound
    rcases lookupLocal?_run_components hBound with
      hOld | ⟨path, location, found, rfl, hFree, hImport, hSource⟩
    · exact hOwns.imported name l (hScopes ▸ hOld)
    · rw [hScopes] at hFree
      rw [hFile] at hImport
      rw [hProgress.ahead name (hProgress.not_mem_of_free hFree), Setup.imported?_cons]
      simp only [↓reduceIte, hImport, hSource]
  declared name f hBound := by
    rw [← hScopes, lookupLocal?_run resolve (hScopes ▸ hOwns.holds.functions)] at hBound
    rcases Option.or_eq_some_iff.mp hBound with hHere | ⟨-, hOld⟩
    · have hMem : f ∈ statement.functions := List.mem_reverse.mp (List.mem_of_find?_eq_some hHere)
      refine ⟨f, hProgress.functions f ?_, by simpa using List.find?_some hHere⟩
      exact List.mem_flatMap.mpr ⟨statement, List.mem_cons_self, hMem⟩
    · exact hOwns.declared name f (hScopes ▸ hOld)

/-- How a part of the preamble of a component is carried out: it ends as the template
says, it leaves the session sound and has written to the frames of the component alone,
which still are its own. If it succeeds, what comes `behind` it is left and its functions
are defined. -/
structure Carried (resolve : Resolver) (session : Session) (k : Component) (seen : List String)
    (part behind : List Setup) (result : Except RenderError Unit × Session) : Prop where
  outcome_eq : result.1 = Setup.outcomes resolve k.file seen part
  sound : result.2.Sound resolve
  owns : result.2.Owns resolve k
  writes : Writes k.scopes session result.2
  progress : result.1 = .ok () → ∃ last, result.2.Progress resolve k last behind
  functions : result.1 = .ok () → ∀ name,
    result.2.functions.lookupLocal? k.scopes.functions name =
      ((part.flatMap Setup.functions).reverse.find? (·.name = name)).or
        (session.functions.lookupLocal? k.scopes.functions name)

theorem runAll_carried {part behind : List Setup} (hSound : session.Sound resolve)
    (hOwns : session.Owns resolve k) (hScopes : c.scopes = k.scopes) (hFile : c.file = k.file)
    (hProgress : session.Progress resolve k seen (part ++ behind)) :
    Carried resolve session k seen part behind (Setup.runAll resolve c part session) := by
  induction part generalizing session seen with
  | nil =>
      exact ⟨rfl, hSound, hOwns, .refl _ _, fun _ => ⟨seen, hProgress⟩, fun _ _ => rfl⟩
  | cons statement part ih =>
      have hFrames := hOwns.holds
      have hOutcome := run_outcome hOwns hScopes hFile hProgress
      have hAfter := run_sound hSound hOwns hScopes hFile hProgress
      have hOwned := run_owns hOwns hScopes hFile hProgress
      have hWrites := writes_run resolve c session statement
      have hNext := run_progress (hScopes ▸ hFrames.components) hScopes hProgress
      have hFunctions := lookupLocal?_run resolve (hScopes ▸ hFrames.functions) statement
      rw [hScopes] at hWrites hFunctions
      unfold Setup.runAll
      revert hOutcome hAfter hOwned hWrites hNext hFunctions
      rcases statement.run resolve c session with ⟨result, after⟩
      intro hOutcome hAfter hOwned hWrites hNext hFunctions
      cases result with
      | error e =>
          refine ⟨?_, hAfter, hOwned, hWrites, ?_, ?_⟩
          · rw [Setup.outcomes, ← hOutcome]
          · intro hOk
            cases hOk
          · intro hOk
            cases hOk
      | ok _ =>
          have hRest := ih hAfter hOwned (hNext rfl)
          have hEnd : Setup.outcomes resolve k.file seen (statement :: part) =
              Setup.outcomes resolve k.file (statement.imports ++ seen) part := by
            rw [Setup.outcomes, ← hOutcome]
          refine ⟨hRest.outcome_eq.trans hEnd.symm, hRest.sound, hRest.owns,
            hWrites.trans hRest.writes, hRest.progress, ?_⟩
          intro hOk name
          rw [hRest.functions hOk name, hFunctions name, List.flatMap_cons, List.reverse_append,
            List.find?_append, Option.or_assoc]

/-- The preamble of a component may be carried out in part. -/
theorem part_carried (hSound : session.Sound resolve) (hOwns : session.Owns resolve k)
    (hScopes : c.scopes = k.scopes) (hFile : c.file = k.file) (count : Nat) :
    Carried resolve session k [] (k.source.preamble.1.take count)
      (k.source.preamble.1.drop count)
      (Setup.runAll resolve c (k.source.preamble.1.take count) session) := by
  apply runAll_carried hSound hOwns hScopes hFile
  rw [List.take_append_drop]
  exact session.progress_start resolve k

/-- The whole preamble of a component is carried out so. -/
theorem preamble_carried (hSound : session.Sound resolve) (hOwns : session.Owns resolve k)
    (hScopes : c.scopes = k.scopes) (hFile : c.file = k.file) :
    Carried resolve session k [] k.source.preamble.1 []
      (Setup.runAll resolve c k.source.preamble.1 session) := by
  apply runAll_carried hSound hOwns hScopes hFile
  rw [List.append_nil]
  exact session.progress_start resolve k

end Session

end HtmlTemplate
