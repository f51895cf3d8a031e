import HtmlTemplate.Proofs.Render.Levels
import HtmlTemplate.Proofs.Render.Reading
import HtmlTemplate.Proofs.Script.Reading
import HtmlTemplate.Proofs.Session.History
import HtmlTemplate.Proofs.Session.Hoisting
import HtmlTemplate.Proofs.Source.Conditional

/-! Branches are transparent. The block that the condition selects is rendered in frames
of its own, but to the same text or error as in the frames around it, and what follows the
branch goes on as if the block had stood there. The other block is never looked at. -/
namespace HtmlTemplate

namespace Conditional

/-- The text that the condition selects; there is none where an alternative is missing. -/
def selected (k : Conditional) (holds : Bool) : List Char :=
  if holds then k.block else (k.alternative?.map Alternative.block).getD []

/-- The white space behind the block, which is markup unless `@else` follows it. -/
def kept (k : Conditional) : List Char :=
  if k.alternative?.isSome then [] else k.trailing

end Conditional

/-- Renders a text as markup, in the frames at hand. -/
def renderMarkup (nested : Nested) (context : Context) (source : List Char) (session : Session) :
    Except RenderError (List Char) × Session :=
  match Token.scanMarkup (String.ofList source) context.file with
  | .error e => (.error (.scan e), session)
  | .ok tokens => renderBody nested tokens context session

/-- The components of a session have open frames and no setup statement behind `serve`. -/
def Session.WellScoped (session : Session) : Prop :=
  ∀ k, session.Knows k → session.Holds k.scopes ∧ ServesLast k.tokens

/-- Every session that comes about is so. -/
theorem History.Leads.wellScoped {resolve : Resolver} {limit : Nat} {h : History}
    (hLeads : History.Leads resolve ⟨Session.start limit, []⟩ h) : h.session.WellScoped := by
  intro k hKnows
  have hSound := (hLeads.valid (History.valid_start resolve limit)).1.sound
  exact ⟨(hSound.canonical k hKnows).holds, (hSound.canonical k hKnows).servesLast⟩

section

variable {blanks rest : List Token} {word condition block : Token}

theorem dropBlanks_append (h : ∀ t ∈ blanks, t.kind = .blank) :
    dropBlanks (blanks ++ rest) = dropBlanks rest := by
  unfold dropBlanks
  exact List.dropWhile_append_of_pos (by simpa using h)

/-- Where no `@else` follows, the blanks are left. -/
theorem splitElse_of_missing (hBlanks : ∀ t ∈ blanks, t.kind = .blank)
    (hMissing : ∀ t ∈ (dropBlanks rest).head?, t.kind ≠ .keyword .elseBranch) :
    splitElse (blanks ++ rest) = (none, blanks ++ rest) := by
  unfold splitElse
  rw [dropBlanks_append hBlanks]
  cases hFound : dropBlanks rest with
  | nil => rfl
  | cons token behind => exact if_neg (hMissing token (by rw [hFound]; rfl))

theorem splitElse_of_block (hBlanks : ∀ t ∈ blanks, t.kind = .blank)
    (hWord : word.kind = .keyword .elseBranch) (hBlock : block.kind = .block) :
    splitElse (blanks ++ word :: block :: rest) = (some block.value, rest) := by
  unfold splitElse
  rw [dropBlanks_append hBlanks]
  simp [dropBlanks, hWord, hBlock]

/-- What a branch asks for once its block has been chosen. -/
def Action.ofBlock? (keyword : Token) : Option String → Action
  | some source => .run (.block source) keyword
  | none => .emit []

theorem finds_readBranch {session : Session} {context : Context} {holds : Bool}
    (rest : List Token) (hCondition : condition.kind = .condition) (hBlock : block.kind = .block)
    (hHolds : context.conditionHolds session condition.value = .ok holds) (endAt : Location)
    (keyword : Token) :
    (readBranch session context endAt keyword).Finds (condition :: block :: rest)
      (Action.ofBlock? keyword (if holds then some block.value else (splitElse rest).1))
      (splitElse rest).2 := by
  unfold readBranch
  refine .bind (.expect hCondition nofun) (.bind (a := holds) (.ofExcept ?_)
    (.bind (.expect hBlock nofun) (.bind ⟨rfl, rfl⟩ ?_)))
  · rw [hHolds]
  · cases if holds then some block.value else (splitElse rest).1 <;> exact ⟨rfl, rfl⟩

end

theorem kind_of_lexemes {blanks : List Token} {text : List Char}
    (h : blanks.map Token.lexeme = text.map fun ch => (.blank, String.ofList [ch])) :
    ∀ t ∈ blanks, t.kind = .blank := by
  intro t ht
  have hLexeme := List.mem_map_of_mem (f := Token.lexeme) ht
  rw [h] at hLexeme
  obtain ⟨ch, -, hSame⟩ := List.mem_map.mp hLexeme
  exact (congrArg Prod.fst hSame).symm

namespace Rendering

variable {nested : Nested} {serve : Bool} {r : Rendering} {session : Session} {rest : List Token}

theorem readAction_of_finds {m : Reading Action} {action : Action} {behind : List Token}
    (h : m.Finds r.rest action behind) : r.readAction m = (action, r.moveTo behind) := by
  obtain ⟨hValue, rfl⟩ := h
  have hRead : r.read m = (.ok action, r.moveTo (m r.rest).rest) := Prod.ext hValue rfl
  unfold readAction
  rw [hRead]

/-- White space is copied. -/
theorem walk_blanks {blanks : List Token} {text : List Char}
    (h : blanks.map Token.lexeme = text.map fun ch => (.blank, String.ofList [ch]))
    (hRest : r.rest = blanks ++ rest) :
    (walk nested serve r session).1 =
      (walk nested serve (r.moveTo rest) session).1.map (text ++ ·) := by
  induction text generalizing blanks r with
  | nil =>
      obtain rfl := List.map_eq_nil_iff.mp h
      have hSame : r.moveTo rest = r := by rw [moveTo, ← show r.rest = rest from hRest]
      rw [hSame]
      cases (walk nested serve r session).1 <;> rfl
  | cons ch later ih =>
      obtain ⟨t, others, rfl, hLexeme, hOthers⟩ := List.map_eq_cons_iff.mp h
      obtain ⟨hKind, hValue⟩ := Prod.mk.inj hLexeme
      have hPlaced : t.kind.misplaced? = none := by rw [hKind]; rfl
      have hStep : (r.moveTo (others ++ rest)).step session serve t =
          (.emit [ch], r.moveTo (others ++ rest)) := by
        unfold step
        rw [hKind, hValue, String.toList_ofList]
      rw [walk_of_ok hRest hPlaced hStep rfl rfl]
      dsimp only
      rw [ih hOthers (r := r.moveTo (others ++ rest)) rfl]
      exact map_append_map [ch] later (walk nested serve (r.moveTo rest) session).1

end Rendering

section

variable {context : Context} {session : Session}

/-- Frames that were open before a block keep their numbers. -/
theorem Scopes.hoist_of_holds (scopes : Scopes) {other : Scopes} (h : session.Holds other) :
    other.hoist (session.blockScopes scopes).2 scopes = other := by
  have hComponents : hoistFrame (session.blockScopes scopes).2.components scopes.components
      other.components = other.components := hoistFrame_of_lt h.components
  have hFunctions : hoistFrame (session.blockScopes scopes).2.functions scopes.functions
      other.functions = other.functions := hoistFrame_of_lt h.functions
  unfold Scopes.hoist
  rw [hComponents, hFunctions]

/-- In the block itself names are looked up around it. -/
theorem Scopes.hoist_blockScopes (session : Session) (scopes : Scopes) :
    (session.blockScopes scopes).2.hoist (session.blockScopes scopes).2 scopes = scopes := by
  unfold Scopes.hoist
  rw [hoistFrame_self, hoistFrame_self]
  rfl

/-- A block that has just been opened, beside the session in which it has not. -/
theorem Session.WellScoped.hoisted (h : session.WellScoped) {scopes : Scopes}
    (hHolds : session.Holds scopes) :
    (session.blockScopes scopes).1.Hoisted (session.blockScopes scopes).2 scopes session := by
  have hOpens := session.opens_blockScopes scopes
  refine ⟨.of_alloc ?_ hHolds.components, .of_alloc (fun _ _ _ _ => rfl) hHolds.functions, rfl, rfl,
    rfl, ?_⟩
  · intro scope name k hFound
    exact congrArg (fun scopes => { k with scopes := scopes })
      (Scopes.hoist_of_holds scopes (h k ⟨scope, name, hFound⟩).1)
  · intro k hKnows
    obtain ⟨hFrames, hLast⟩ := h k ((hOpens.knows_iff k).mp hKnows)
    exact ⟨⟨hFrames.grows hOpens.grows, Nat.ne_of_lt hFrames.components,
      Nat.ne_of_lt hFrames.functions⟩, hLast⟩

/-- What is rendered in a new block is what is rendered around it: the same error, or the
same text in sessions that stand beside each other. -/
theorem renderBlock_alike (resolve : Resolver) (h : session.WellScoped)
    (hHolds : session.Holds context.scopes) (levels : Nat) (source : List Char) :
    (∃ e, (renderBlock (nestedWithin resolve levels) context (String.ofList source) session).1 =
        .error e ∧
      (renderMarkup (nestedWithin resolve levels) context source session).1 = .error e) ∨
    ∃ text after around,
      renderBlock (nestedWithin resolve levels) context (String.ofList source) session =
        (.ok text, after) ∧
      renderMarkup (nestedWithin resolve levels) context source session = (.ok text, around) ∧
      after.Hoisted (session.blockScopes context.scopes).2 context.scopes around ∧
      session.Grows after := by
  unfold renderBlock renderMarkup
  cases Token.scanMarkup (String.ofList source) context.file with
  | error e => exact .inl ⟨_, rfl, rfl⟩
  | ok tokens =>
      dsimp only
      have hGrows := (session.opens_blockScopes context.scopes).grows
      have hContexts : (hoistedCoupling (session.blockScopes context.scopes).2
          context.scopes).lockstep.Contexts ((session.blockScopes context.scopes).1, session)
          { context with scopes := (session.blockScopes context.scopes).2 } context :=
        ⟨congrArg (fun scopes => { context with scopes := scopes })
          (Scopes.hoist_blockScopes session context.scopes), session.holds_blockScopes hHolds⟩
      have hBody := Lockstep.renderBody_alike
        (p := ((session.blockScopes context.scopes).1, session))
        (hoisted_nested_alike _ _ resolve levels) (h.hoisted hHolds) hContexts
        (fun t (_ : t ∈ tokens) => trivial)
      revert hBody
      dsimp only
      generalize renderBody (nestedWithin resolve levels) tokens
        { context with scopes := (session.blockScopes context.scopes).2 }
        (session.blockScopes context.scopes).1 = inside
      generalize renderBody (nestedWithin resolve levels) tokens context session = around
      intro hBody
      cases hBody with
      | cut hCut => exact hCut.elim
      | error _ _ => exact .inl ⟨_, rfl, rfl⟩
      | ok _ hAfter hLater => exact .inr ⟨_, _, _, rfl, rfl, hAfter, hGrows.trans hLater⟩

/-- What follows a block goes on in the same way in sessions that stand beside each other. -/
theorem walk_hoisted (resolve : Resolver) {inner outer : Scopes} {after around : Session}
    (h : after.Hoisted inner outer around) (levels : Nat) (serve : Bool) {r : Rendering}
    (hHolds : after.Holds r.context.scopes) (hSame : r.context.hoist inner outer = r.context) :
    (Rendering.walk (nestedWithin resolve levels) serve r after).1 =
      (Rendering.walk (nestedWithin resolve levels) serve r around).1 := by
  have hWalked := Lockstep.walk_alike (p := (after, around)) (d := r.context) (r := r)
    (hoisted_nested_alike inner outer resolve levels) serve h ⟨hSame, hHolds⟩ (fun _ _ => trivial)
  exact hWalked.outcome.eq_of_uncut fun _ _ => id

end

section

variable {k : Conditional} {tokens rest : List Token} {holds : Bool}

/-- The tokens of a branch. -/
theorem Conditional.tokens_eq (h : tokens.map Token.lexeme = k.lexemes) :
    ∃ word condition block blanks last, tokens = word :: condition :: block :: (blanks ++ last) ∧
      word.kind = .keyword .ifBranch ∧ condition.lexeme = (.condition, k.value) ∧
      block.lexeme = (.block, String.ofList k.block) ∧
      blanks.map Token.lexeme = k.trailing.map (fun ch => (.blank, String.ofList [ch])) ∧
      last.map Token.lexeme = (k.alternative?.map Alternative.lexemes).getD [] := by
  unfold Conditional.lexemes at h
  obtain ⟨front, last, rfl, hFront, hLast⟩ := List.map_eq_append_iff.mp h
  obtain ⟨headed, blanks, rfl, hHeaded, hBlanks⟩ := List.map_eq_append_iff.mp hFront
  obtain ⟨word, _, rfl, hWord, hHeaded⟩ := List.map_eq_cons_iff.mp hHeaded
  obtain ⟨condition, _, rfl, hCondition, hHeaded⟩ := List.map_eq_cons_iff.mp hHeaded
  obtain ⟨block, _, rfl, hBlock, hHeaded⟩ := List.map_eq_cons_iff.mp hHeaded
  obtain rfl := List.map_eq_nil_iff.mp hHeaded
  exact ⟨word, condition, block, blanks, last, rfl, congrArg Prod.fst hWord, hCondition, hBlock,
    hBlanks, hLast⟩

/-- The block that the condition selects, if there is one. -/
def Conditional.chosen? (k : Conditional) (holds : Bool) : Option String :=
  if holds then some (String.ofList k.block)
  else k.alternative?.map fun a => String.ofList a.block

theorem Conditional.chosen?_cases (k : Conditional) (holds : Bool) :
    k.chosen? holds = none ∧ k.selected holds = [] ∨
    k.chosen? holds = some (String.ofList (k.selected holds)) := by
  unfold chosen? selected
  cases holds with
  | true => exact .inr rfl
  | false => cases k.alternative? <;> simp

/-- The alternative is found behind the blanks if there is one; if there is none, the
blanks are left. -/
theorem Conditional.splitElse_eq {blanks last : List Token}
    (hBlanks : blanks.map Token.lexeme = k.trailing.map fun ch => (.blank, String.ofList [ch]))
    (hLast : last.map Token.lexeme = (k.alternative?.map Alternative.lexemes).getD [])
    (hMissing : k.alternative? = none →
      ∀ t ∈ (dropBlanks rest).head?, t.kind ≠ .keyword .elseBranch) :
    splitElse (blanks ++ last ++ rest) =
      (k.alternative?.map fun a => String.ofList a.block,
        if k.alternative?.isSome then rest else blanks ++ rest) := by
  have hKinds := kind_of_lexemes hBlanks
  cases hAlternative : k.alternative? with
  | none =>
      rw [hAlternative] at hLast
      obtain rfl := List.map_eq_nil_iff.mp hLast
      rw [List.append_nil]
      exact splitElse_of_missing hKinds (hMissing hAlternative)
  | some a =>
      rw [hAlternative] at hLast
      obtain ⟨word, _, rfl, hWord, hRest⟩ := List.map_eq_cons_iff.mp hLast
      obtain ⟨block, _, rfl, hBlock, hRest⟩ := List.map_eq_cons_iff.mp hRest
      obtain rfl := List.map_eq_nil_iff.mp hRest
      obtain ⟨hBlockKind, hBlockValue⟩ := Prod.mk.inj hBlock
      rw [List.append_assoc]
      refine (splitElse_of_block hKinds (congrArg Prod.fst hWord) hBlockKind).trans ?_
      rw [hBlockValue]
      rfl

/-- Where a branch begins, the walk renders the chosen block and goes on behind the
branch, or behind its block if there is no alternative. -/
theorem step_of_branch {session : Session} {r : Rendering} {word condition block : Token}
    {blanks last : List Token} (serve : Bool) (hWord : word.kind = .keyword .ifBranch)
    (hCondition : condition.lexeme = (.condition, k.value))
    (hBlock : block.lexeme = (.block, String.ofList k.block))
    (hBlanks : blanks.map Token.lexeme = k.trailing.map fun ch => (.blank, String.ofList [ch]))
    (hLast : last.map Token.lexeme = (k.alternative?.map Alternative.lexemes).getD [])
    (hMissing : k.alternative? = none →
      ∀ t ∈ (dropBlanks rest).head?, t.kind ≠ .keyword .elseBranch)
    (hHolds : r.context.conditionHolds session k.value = .ok holds) :
    (r.moveTo (condition :: block :: (blanks ++ last ++ rest))).step session serve word =
      (Action.ofBlock? word (k.chosen? holds),
        r.moveTo (if k.alternative?.isSome then rest else blanks ++ rest)) := by
  obtain ⟨hConditionKind, hValue⟩ := Prod.mk.inj hCondition
  obtain ⟨hBlockKind, hBlockValue⟩ := Prod.mk.inj hBlock
  have hFinds := finds_readBranch (blanks ++ last ++ rest) hConditionKind hBlockKind
    (hValue ▸ hHolds) r.endLocation word
  rw [Conditional.splitElse_eq hBlanks hLast hMissing, hBlockValue] at hFinds
  unfold Rendering.step
  rw [hWord]
  exact Rendering.readAction_of_finds hFinds

/-- Behind the chosen block the walk goes on behind the branch, the white space apart that
stays. -/
theorem walk_behind_branch (nested : Nested) (serve : Bool) (r : Rendering) (session : Session)
    (rest : List Token) {blanks : List Token}
    (hBlanks : blanks.map Token.lexeme = k.trailing.map fun ch => (.blank, String.ofList [ch])) :
    (Rendering.walk nested serve
      (r.moveTo (if k.alternative?.isSome then rest else blanks ++ rest)) session).1 =
      (Rendering.walk nested serve (r.moveTo rest) session).1.map (k.kept ++ ·) := by
  unfold Conditional.kept
  cases k.alternative?.isSome with
  | false =>
      exact Rendering.walk_blanks (r := r.moveTo (blanks ++ rest)) hBlanks rfl
  | true =>
      simp only [↓reduceIte, List.nil_append]
      cases (Rendering.walk nested serve (r.moveTo rest) session).1 <;> rfl

/-- No text renders to no text. -/
theorem renderMarkup_nil (nested : Nested) (context : Context) (session : Session) :
    renderMarkup nested context [] session = (.ok [], session) := by
  have hScanned : Token.scanMarkup (String.ofList []) context.file = .ok [] := by
    unfold Token.scanMarkup Token.scan
    rw [Source.scanFrom]
    rfl
  unfold renderMarkup
  rw [hScanned]
  dsimp only [renderBody, Rendering.body]
  rw [Rendering.walk_nil nested false session rfl]
  rfl

/-- The chosen block is rendered one level deeper as if it stood in the frames around it,
and then the walk goes on. -/
theorem perform_chosen (resolve : Resolver) {session : Session} {r : Rendering} (serve : Bool)
    (word : Token) (hScoped : session.WellScoped) (hOpen : session.Holds r.context.scopes)
    (hDepth : session.depth < session.maxDepth) (source : List Char) :
    (∃ e final later, (Action.run (.block (String.ofList source)) word).perform
        (session.nested resolve) r.context session = (.error e, final) ∧
      renderMarkup (session.enter.nested resolve) r.context source session.enter =
        (.error e, later)) ∨
    ∃ text final later, (Action.run (.block (String.ofList source)) word).perform
        (session.nested resolve) r.context session = (.ok text, final) ∧
      renderMarkup (session.enter.nested resolve) r.context source session.enter =
        (.ok text, later) ∧
      (Rendering.walk (session.nested resolve) serve r final).1 =
        (Rendering.walk (session.nested resolve) serve r later.leave).1 := by
  have hScopedInside : session.enter.WellScoped := fun k hKnows =>
    (hScoped k hKnows).imp_left (·.grows session.opens_enter.grows)
  have hOpenInside : session.enter.Holds r.context.scopes := hOpen.grows session.opens_enter.grows
  have hPerformed : (Action.run (.block (String.ofList source)) word).perform
      (session.nested resolve) r.context session = _ :=
    Session.nested_eq resolve hDepth (.block (String.ofList source)) word
  rw [hPerformed]
  unfold Task.render
  rcases renderBlock_alike resolve hScopedInside hOpenInside
    (session.enter.maxDepth - session.enter.depth) source with
    ⟨e, hBlock, hMarkup⟩ | ⟨text, after, later, hBlock, hMarkup, hHoisted, hGrows⟩
  · exact .inl ⟨e, _, _, Prod.ext hBlock rfl, Prod.ext hMarkup rfl⟩
  · refine .inr ⟨text, after.leave, later, ?_, hMarkup, ?_⟩
    · unfold Session.nested
      dsimp only
      rw [hBlock]
    · have hSame := congrArg (fun scopes => { r.context with scopes := scopes })
        (Scopes.hoist_of_holds r.context.scopes hOpenInside)
      exact walk_hoisted resolve hHoisted.leave _ serve
        ((hOpenInside.grows hGrows).grows after.opens_leave.grows) hSame

/-- A branch contributes what the selected block does when it is rendered as markup in
the frames around it, one level deeper: the same error, or the same text, behind which the
walk goes on as it would behind that markup. Nothing is asked of the block that is not
selected but that its braces are balanced, and without an alternative the white space
behind the block stays. All sessions of pages are well scoped, see
`History.Leads.wellScoped`. -/
theorem branch_transparent (resolve : Resolver) (file : String) (hWellFormed : k.WellFormed)
    {c : Cursor} {behind : List Char} (hText : c.rest = k.text ++ behind) :
    ∃ tokens after, after.rest = behind ∧ Source.ScansTo file c tokens after ∧
      ∀ (serve : Bool) {r : Rendering} {session : Session} {rest : List Token} {holds : Bool},
        r.rest = tokens ++ rest → session.WellScoped → session.Holds r.context.scopes →
        session.depth < session.maxDepth →
        (k.alternative? = none → ∀ t ∈ (dropBlanks rest).head?, t.kind ≠ .keyword .elseBranch) →
        r.context.conditionHolds session k.value = .ok holds →
        (Rendering.walk (session.nested resolve) serve r session).1 =
          match renderMarkup (session.enter.nested resolve) r.context (k.selected holds)
            session.enter with
          | (.error e, _) => .error e
          | (.ok text, later) =>
            (Rendering.walk (session.nested resolve) serve (r.moveTo rest) later.leave).1.map
              (text ++ k.kept ++ ·) := by
  obtain ⟨tokens, after, hScans, hLexemes, hAfter⟩ := k.scansTo file hWellFormed hText
  refine ⟨tokens, after, hAfter, hScans, ?_⟩
  intro serve r session rest holds hRest hScoped hOpen hDepth hMissing hHolds
  obtain ⟨word, condition, block, blanks, last, rfl, hWord, hCondition, hBlock, hBlanks, hLast⟩ :=
    Conditional.tokens_eq hLexemes
  have hStep := step_of_branch serve hWord hCondition hBlock hBlanks hLast hMissing hHolds
  have hPlaced : word.kind.misplaced? = none := by rw [hWord]; rfl
  have hBehind (later : Session) :=
    walk_behind_branch (session.nested resolve) serve r later rest hBlanks
  rcases k.chosen?_cases holds with ⟨hNone, hNothing⟩ | hSome
  · rw [hNone] at hStep
    rw [Rendering.walk_of_ok hRest hPlaced hStep rfl rfl, hNothing, renderMarkup_nil]
    dsimp only
    rw [hBehind, map_append_map, session.leave_enter]
  · rw [hSome] at hStep
    rcases perform_chosen (r := r.moveTo rest) resolve serve word hScoped hOpen hDepth
      (k.selected holds) with
      ⟨e, final, later, hPerformed, hMarkup⟩ | ⟨text, final, later, hPerformed, hMarkup, hSame⟩
    · rw [Rendering.moveTo_context] at hMarkup
      rw [Rendering.walk_of_error hRest hPlaced hStep hPerformed, hMarkup]
    · rw [Rendering.moveTo_context] at hMarkup
      rw [Rendering.walk_of_ok hRest hPlaced hStep hPerformed rfl, hMarkup]
      dsimp only
      rw [hBehind, hSame, map_append_map]

end

namespace Script

/-- A name that stands alone is an expression. -/
theorem evaluate_name {source name : String} {extent stop : Extent}
    (h : parserTokens source = .ok [⟨.identifier name, extent⟩, ⟨.finish, stop⟩])
    (env : Environment) : evaluate source env = .ok (variableValue env [] name) := by
  have hTakes : Takes 10 [⟨.identifier name, extent⟩] (.identifier extent name) := by
    refine takes_of_primary rfl fun rest => ?_
    rw [primary]
    exact reads_ok _
  have hRead := hTakes.lower (Nat.zero_le 10) [⟨.finish, stop⟩] rfl
  have hParsed : Expr.parse source = .ok (.identifier extent name) :=
    (parse_eq_ok h).mpr ⟨stop, [], hRead⟩
  unfold evaluate
  rw [hParsed]
  dsimp only
  unfold Expr.evalIn
  rw [eval]
  rfl

end Script

/-- `@if (who) {<c>{@(who)}</c>} @else {nobody}`, with a line break in front of `@else`. -/
def greeting : Conditional where
  blanks := [' ']
  condition := "who".toList
  gap := [' ']
  block := "<c>\x7b@(who)\x7d</c>".toList
  trailing := ['\n']
  alternative? := some ⟨[' '], "nobody".toList⟩

theorem greeting_wellFormed : greeting.WellFormed where
  blanks := by decide
  condition := ⟨_, rfl, by decide⟩
  gap := by decide
  block := by decide
  trailing := by decide
  alternative := by
    rintro a ⟨⟩
    exact ⟨by decide, by decide⟩

/-- Every import leads to a component that puts its content in brackets. -/
def bracketing : Resolver :=
  fun _ path => .ok ⟨path, "serve ([@(slot)])"⟩

/-- A page that has imported one component. -/
def bracketingPage : History :=
  ⟨((Setup.importComponent "c" "c" ⟨"page", 1, 1⟩).run bracketing ⟨[], ⟨0, 0, 0, 0⟩, "page"⟩
    (Session.start 64).pageScopes.1).2, [⟨0, 0, 0, 0⟩]⟩

/-- That page, rendered for someone. -/
def visit : Context :=
  ⟨[("who", .string "x")], ⟨0, 0, 0, 0⟩, "page"⟩

theorem visit_holds (session : Session) :
    visit.conditionHolds session greeting.value = .ok true := by
  have hTokens : Script.parserTokens "who" =
      .ok [⟨.identifier "who", ⟨0, 3⟩⟩, ⟨.finish, ⟨3, 3⟩⟩] :=
    toOption_eq_some.mp (by decide +kernel)
  have hInner : String.ofList ((insideParens? (Text.trim greeting.value.toList)).getD
      (Text.trim greeting.value.toList)) = "who" := by decide +kernel
  unfold Context.conditionHolds
  dsimp only
  rw [hInner, Script.evaluate_name hTokens]
  rfl

/-- A branch that invokes a component of the page, in front of other markup: the content
of the component's element is rendered in the block as it is outside of it. -/
theorem branch_transparent_of_component :
    greeting.WellFormed ∧
    (Cursor.start (greeting.text ++ "<br>".toList)).rest = greeting.text ++ "<br>".toList ∧
    bracketingPage.session.WellScoped ∧ bracketingPage.session.Holds visit.scopes ∧
    bracketingPage.session.depth < bracketingPage.session.maxDepth ∧
    visit.conditionHolds bracketingPage.session greeting.value = .ok true ∧
    ∃ tokens after, after.rest = "<br>".toList ∧
      Source.ScansTo "page" (Cursor.start (greeting.text ++ "<br>".toList)) tokens after ∧
      (Rendering.walk (bracketingPage.session.nested bracketing) false
        (Rendering.start tokens visit) bracketingPage.session).1 = .ok "[\x7bx\x7d]".toList := by
  have hReached : History.Leads bracketing ⟨Session.start 64, []⟩ bracketingPage :=
    .step (.step (.refl _) (.openPage _)) (.setup _ _ _ List.mem_cons_self)
  have hScoped := hReached.wellScoped
  have hHolds : bracketingPage.session.Holds visit.scopes :=
    ⟨by decide +kernel, by decide +kernel, by decide +kernel, by decide +kernel⟩
  have hDepth : bracketingPage.session.depth < bracketingPage.session.maxDepth := by decide +kernel
  have hTrue := visit_holds bracketingPage.session
  refine ⟨greeting_wellFormed, rfl, hScoped, hHolds, hDepth, hTrue, ?_⟩
  obtain ⟨tokens, after, hAfter, hScans, hWalk⟩ := branch_transparent bracketing "page"
    greeting_wellFormed (c := Cursor.start (greeting.text ++ "<br>".toList)) rfl
  refine ⟨tokens, after, hAfter, hScans, ?_⟩
  have hRest : (Rendering.start tokens visit).rest = tokens ++ [] := (List.append_nil tokens).symm
  have hContext : (Rendering.start tokens visit).context = visit := rfl
  have hMarkup : (renderMarkup (bracketingPage.session.enter.nested bracketing) visit
      (greeting.selected true) bracketingPage.session.enter).1 = .ok "[\x7bx\x7d]".toList :=
    toOption_eq_some.mp (by decide +kernel)
  rw [hWalk false hRest hScoped hHolds hDepth nofun hTrue, hContext]
  revert hMarkup
  rcases renderMarkup (bracketingPage.session.enter.nested bracketing) visit
    (greeting.selected true) bracketingPage.session.enter with ⟨_, later⟩
  rintro rfl
  dsimp only
  rw [Rendering.walk_nil _ false later.leave rfl]
  rfl

end HtmlTemplate
