import HtmlTemplate.Proofs.Render.Branching
import HtmlTemplate.Proofs.Render.Copying
import HtmlTemplate.Proofs.Render.Slots
import HtmlTemplate.Proofs.Source.Iteration

/-! What the parts of a body come to whose own parts are copied: a branch whose block is, a loop
whose block is, and the elements of a component whose template is. -/
namespace HtmlTemplate

/-- In front of a closing parenthesis, rendering these tokens writes a text, and goes on with the
parenthesis in another session. -/
def Writes (nested : Nested) (context : Context) (session : Session) (tokens : List Token)
    (text : List Char) (final : Session) : Prop :=
  ∀ (serve : Bool) (r : Rendering) (closing : Token), closing.kind = .closeParen →
    r.context = context → r.rest = tokens ++ [closing] →
      Rendering.walk nested serve r session =
        prepend text (Rendering.walk nested serve (r.moveTo [closing]) final)

/-- A component comes to a text with its parameters put in, and leaves the session alone. -/
def Component.Fills (k : Component) (resolve : Resolver) (session : Session) (text : List Char) :
    Prop :=
  ∀ (nested : Nested) (bag : Bag),
    renderComponent nested resolve k bag session = (.ok (substitute bag text), session)

section

variable {nested : Nested} {resolve : Resolver} {context : Context} {session final : Session}
  {tokens inner : List Token} {text : List Char}

theorem Copied.writes (h : Copied session context.scopes tokens) :
    Writes nested context session tokens (valuesText tokens) session := by
  intro serve r closing _ hContext hRest
  exact h nested serve r [closing] (congrArg Context.scopes hContext) hRest

/-- Tokens of which the first one asks for work and the others are passed over, up to some
that are copied. -/
theorem writes_of_step {t : Token} {action : Action} {passed kept : List Token}
    (hPlaced : t.kind.misplaced? = none) (hClose : action.isClose = false)
    (hStep : ∀ (serve : Bool) (r : Rendering) (closing : Token), closing.kind = .closeParen →
      r.context = context →
        (r.moveTo (passed ++ [closing])).step session serve t =
          (action, r.moveTo (kept ++ [closing])))
    (hPerformed : action.perform nested context session = (.ok text, final))
    (hKept : Copied final context.scopes kept) :
    Writes nested context session (t :: passed) (text ++ valuesText kept) final := by
  intro serve r closing hClosing hContext hRest
  have hWalk : Rendering.walk nested serve r session =
      prepend text (Rendering.walk nested serve (r.moveTo (kept ++ [closing])) final) :=
    Rendering.walk_of_ok hRest hPlaced (hStep serve r closing hClosing hContext)
      (by rw [hContext]; exact hPerformed) hClose
  have hBehind : Rendering.walk nested serve (r.moveTo (kept ++ [closing])) final =
      prepend (valuesText kept) (Rendering.walk nested serve (r.moveTo [closing]) final) :=
    hKept nested serve (r.moveTo (kept ++ [closing])) [closing]
      (congrArg Context.scopes hContext) rfl
  rw [hWalk, hBehind, prepend_prepend]

/-- Or up to the parenthesis. -/
theorem writes_of_task {t : Token} {action : Action} {passed : List Token}
    (hPlaced : t.kind.misplaced? = none) (hClose : action.isClose = false)
    (hStep : ∀ (serve : Bool) (r : Rendering) (closing : Token), closing.kind = .closeParen →
      r.context = context →
        (r.moveTo (passed ++ [closing])).step session serve t = (action, r.moveTo [closing]))
    (hPerformed : action.perform nested context session = (.ok text, final)) :
    Writes nested context session (t :: passed) text final := by
  have hWrites := writes_of_step hPlaced hClose hStep hPerformed copied_nil
  rwa [show valuesText [] = [] from rfl, List.append_nil] at hWrites

/-- With a level left, a task writes what it is rendered to. -/
theorem perform_run (task : Task) (token : Token) (hDepth : session.depth < session.maxDepth)
    (h : task.render (session.enter.nested resolve) resolve context session.enter =
      (.ok text, final)) :
    (Action.run task token).perform (session.nested resolve) context session =
      (.ok text, final.leave) :=
  (Session.nested_eq resolve hDepth task token).trans (by rw [h])

theorem copied_blanks {blanks : List Token}
    (h : blanks.map Token.lexeme = text.map fun ch => (.blank, String.ofList [ch])) :
    Copied session context.scopes blanks ∧ valuesText blanks = text := by
  refine ⟨copied_of_kinds fun t hMem => .inr (.inl (kind_of_lexemes h t hMem)), ?_⟩
  rw [valuesText_of_lexed h]
  simp [lexemesText, List.flatMap_map]

/-- A branch writes its block and the white space behind it that is left. -/
theorem Conditional.writes {k : Conditional} {holds : Bool} (hTokens : Lexed k.lexemes tokens)
    (hHolds : context.conditionHolds session k.value = .ok holds)
    (hSome : k.selected holds ≠ []) (hDepth : session.depth < session.maxDepth)
    (hScan : Token.scanMarkup (String.ofList (k.selected holds)) context.file = .ok inner)
    (hInner : ∀ session scopes, Copied session scopes inner) :
    Writes (session.nested resolve) context session tokens (valuesText inner ++ k.kept)
      (session.enter.blockScopes context.scopes).1.leave := by
  obtain ⟨word, condition, block, blanks, last, rfl, hWord, hCondition, hBlock, hBlanks, hLast⟩ :=
    Conditional.tokens_eq hTokens
  have hChosen : k.chosen? holds = some (String.ofList (k.selected holds)) :=
    (k.chosen?_cases holds).resolve_left fun hNone => hSome hNone.2
  have hPerformed : (Action.ofBlock? word (k.chosen? holds)).perform (session.nested resolve)
      context session =
        (.ok (valuesText inner), (session.enter.blockScopes context.scopes).1.leave) := by
    rw [hChosen]
    exact perform_run _ word hDepth (renderBlock_of_copied _ hScan hInner)
  let kept : List Token := if k.alternative?.isSome then [] else blanks
  have hKept : Copied (session.enter.blockScopes context.scopes).1.leave context.scopes kept ∧
      valuesText kept = k.kept := by
    unfold kept Conditional.kept
    split
    · exact ⟨copied_nil, rfl⟩
    · exact copied_blanks hBlanks
  rw [← hKept.2]
  refine writes_of_step (by rw [hWord]; rfl) (by rw [hChosen]; rfl) ?_ hPerformed hKept.1
  intro serve r closing hClosing hContext
  have hMissing : k.alternative? = none →
      ∀ t ∈ (dropBlanks [closing]).head?, t.kind ≠ .keyword .elseBranch := by
    intro _ t hMem
    have hDropped : dropBlanks [closing] = [closing] := by simp [dropBlanks, hClosing]
    rw [hDropped] at hMem
    cases hMem
    rw [hClosing]
    exact TokenKind.noConfusion
  have hHere : r.context.conditionHolds session k.value = .ok holds := hContext ▸ hHolds
  have hStep := step_of_branch serve hWord hCondition hBlock hBlanks hLast hMissing hHere
  have hRest : (if k.alternative?.isSome then [closing] else blanks ++ [closing]) =
      kept ++ [closing] := by
    unfold kept
    split <;> rfl
  rw [hRest] at hStep
  exact hStep

/-- What a loop goes over, whatever token holds its head. -/
def Iteration.GoesOver (l : Iteration) (context : Context) (head : LoopHead) : Prop :=
  ∀ t : Token, t.value = l.value → context.loopHead t = .ok head

/-- A loop writes its block once for each item. -/
theorem Iteration.writes {l : Iteration} {head : LoopHead} (hTokens : Lexed l.lexemes tokens)
    (hHead : l.GoesOver context head) (hDepth : session.depth < session.maxDepth)
    (hScan : Token.scanMarkup (String.ofList l.block) context.file = .ok inner)
    (hInner : ∀ session scopes, Copied session scopes inner) :
    Writes (session.nested resolve) context session tokens
      (fillItems (valuesText inner) context.bag head.binding head.items)
      (session.enter.blockScopes context.scopes).1.leave := by
  obtain ⟨word, _, rfl, hWord, hRest⟩ := List.map_eq_cons_iff.mp hTokens
  obtain ⟨range, _, rfl, hRange, hRest⟩ := List.map_eq_cons_iff.mp hRest
  obtain ⟨block, rfl, hBlock⟩ := lexed_single hRest
  obtain ⟨hWordKind, -⟩ := Prod.mk.inj hWord
  obtain ⟨hRangeKind, hRangeValue⟩ := Prod.mk.inj hRange
  obtain ⟨hBlockKind, hBlockValue⟩ := Prod.mk.inj hBlock
  have hPerformed : (Action.run (.loop head block.value) word).perform (session.nested resolve)
      context session = (.ok (fillItems (valuesText inner) context.bag head.binding head.items),
        (session.enter.blockScopes context.scopes).1.leave) := by
    rw [hBlockValue]
    exact perform_run _ word hDepth (renderLoop_of_copied _ head hScan hInner)
  refine writes_of_task (by rw [hWordKind]; rfl) rfl ?_ hPerformed
  intro serve r closing _ hContext
  have hFinds : (readLoop r.context r.endLocation word).Finds [range, block, closing]
      (.run (.loop head block.value) word) [closing] := by
    unfold readLoop
    refine .bind (.expect hRangeKind nofun) (.bind (a := head) (.ofExcept ?_)
      (.bind (.expect hBlockKind nofun) ⟨rfl, rfl⟩))
    rw [hContext]
    exact hHead range hRangeValue
  unfold Rendering.step
  rw [hWordKind]
  exact Rendering.readAction_of_finds hFinds

/-- A component that closes itself. -/
theorem writes_closedElement {k : Component} {t : Token} {name attributes : List Char}
    (hKind : t.kind = .selfClosingTag)
    (hParts : tagParts? t.value.toList = some (name, attributes))
    (hFound : session.component? context.scopes (String.ofList name) = some k)
    (hFills : k.Fills resolve session.enter text) (hDepth : session.depth < session.maxDepth) :
    Writes (session.nested resolve) context session [t]
      (substitute (attributeBag context.bag attributes) text) session := by
  have hPerformed : (Action.run (.component k (attributeBag context.bag attributes)) t).perform
      (session.nested resolve) context session =
        (.ok (substitute (attributeBag context.bag attributes) text), session) :=
    perform_run (.component k (attributeBag context.bag attributes)) t hDepth (hFills _ _)
  refine writes_of_task (by rw [hKind]; rfl) rfl ?_ hPerformed
  intro serve r closing _ hContext
  have hHere : session.component? r.context.scopes (String.ofList name) = some k :=
    hContext ▸ hFound
  unfold Rendering.step
  rw [hKind]
  dsimp only
  unfold Rendering.closedElement
  rw [hParts]
  dsimp only [Rendering.moveTo]
  rw [hHere, hContext, List.nil_append]

/-- An element of a component whose content is copied: the content is bound to `slot`, unless
the user has bound it. -/
theorem Element.writes {e : Element} {k : Component} (hInvokes : e.Invokes session context.scopes k)
    (hContent : Copied session.enter context.scopes e.content)
    (hFills : k.Fills resolve session.enter text) (hDepth : session.depth < session.maxDepth) :
    Writes (session.nested resolve) context session e.tokens
      (substitute (e.parameters context.bag (valuesText e.content)) text) session := by
  have hPerformed : (Action.wrap k (attributeBag context.bag e.attributes) e.content e.tag).perform
      (session.nested resolve) context session =
        (.ok (substitute (e.parameters context.bag (valuesText e.content)) text), session) := by
    obtain ⟨levels, hLevels⟩ : ∃ levels, session.maxDepth - session.depth = levels + 1 :=
      ⟨session.maxDepth - session.depth - 1, by omega⟩
    have hWrap := e.perform_wrap resolve levels k context session
    rw [hContent.renderBody_eq] at hWrap
    dsimp only at hWrap
    rw [session.leave_enter, hFills] at hWrap
    unfold Session.nested
    rw [hLevels]
    exact hWrap
  refine writes_of_task (by rw [hInvokes.kind]; rfl) rfl ?_ hPerformed
  intro serve r closing _ hContext
  have hHere : e.Invokes session r.context.scopes k := hContext ▸ hInvokes
  have hStep := hHere.step serve [closing]
  rw [hContext] at hStep
  rw [List.append_assoc]
  exact hStep

end

end HtmlTemplate
