import HtmlTemplate.Proofs.Render.Reading
import HtmlTemplate.Proofs.Render.Walk
import HtmlTemplate.Render.Work

/-! Two renderings in step. A lockstep relates the sessions, the contexts and the
components of two renderings of the same tokens, and its laws say what the relations
must survive. From them it follows that the two give the same texts and the same
errors, up to errors of the left one that cut the comparison off. -/
namespace HtmlTemplate

/-- The relations that two renderings keep, and the laws that make them do so. A pair
holds the sessions of the two, left and right; `Later` leads from one pair to those that
may follow it. Of the texts, tokens and loop heads that both have in common only a
property is asked for. -/
structure Lockstep where
  Sessions : Session × Session → Prop
  Later : Session × Session → Session × Session → Prop
  Contexts : Session × Session → Context → Context → Prop
  Components : Session × Session → Component → Component → Prop
  Bags : Bag → Bag → Prop
  Text : List Char → Prop
  Piece : Token → Prop
  Head : LoopHead → Prop
  Cut : RenderError → Prop
  later_refl : ∀ p, Later p p
  later_trans : ∀ {p q s}, Later p q → Later q s → Later p s
  contexts_later : ∀ {p q c d}, Later p q → Contexts p c d → Contexts q c d
  components_later : ∀ {p q k l}, Later p q → Components p k l → Components q k l
  file_eq : ∀ {p c d}, Contexts p c d → c.file = d.file
  bags_of_contexts : ∀ {p c d}, Contexts p c d → Bags c.bag d.bag
  contexts_withBag : ∀ {p c d a b}, Contexts p c d → Bags a b →
    Contexts p { c with bag := a } { d with bag := b }
  components_found : ∀ {p c d}, Sessions p → Contexts p c d → ∀ name,
    Option.Rel (Components p) (p.1.component? c.scopes name) (p.2.component? d.scopes name)
  blocks : ∀ {p c d}, Sessions p → Contexts p c d →
    Sessions ((p.1.blockScopes c.scopes).1, (p.2.blockScopes d.scopes).1) ∧
    Later p ((p.1.blockScopes c.scopes).1, (p.2.blockScopes d.scopes).1) ∧
    Contexts ((p.1.blockScopes c.scopes).1, (p.2.blockScopes d.scopes).1)
      { c with scopes := (p.1.blockScopes c.scopes).2 }
      { d with scopes := (p.2.blockScopes d.scopes).2 }
  enter : ∀ {p}, Sessions p → Sessions (p.1.enter, p.2.enter) ∧ Later p (p.1.enter, p.2.enter)
  leave : ∀ {p}, Sessions p → Sessions (p.1.leave, p.2.leave) ∧ Later p (p.1.leave, p.2.leave)
  callText_eq : ∀ {p c d t}, Sessions p → Contexts p c d → Piece t →
    c.callText p.1 t = d.callText p.2 t
  text_of_call : ∀ {p c d t text}, Sessions p → Contexts p c d → Piece t →
    c.callText p.1 t = .ok text → Text text
  conditionHolds_eq : ∀ {p c d t}, Sessions p → Contexts p c d → Piece t →
    c.conditionHolds p.1 t.value = d.conditionHolds p.2 t.value
  loopHead_eq : ∀ {p c d t}, Contexts p c d → Piece t → c.loopHead t = d.loopHead t
  head_of_loop : ∀ {p c d t head}, Contexts p c d → Piece t → c.loopHead t = .ok head → Head head
  attributes : ∀ {a b t name text}, Bags a b → Piece t →
    tagParts? t.value.toList = some (name, text) → Bags (attributeBag a text) (attributeBag b text)
  wrap : ∀ {a b u v slot}, Bags a b → Bags u v → Text slot →
    Bags (wrapBag a u slot) (wrapBag b v slot)
  forItem : ∀ {a b head item}, Bags a b → Head head → item ∈ head.items → ∀ index,
    Bags (a.forItem head.binding item index) (b.forItem head.binding item index)
  substitute_eq : ∀ {a b text}, Bags a b → Text text → substitute a text = substitute b text
  text_substitute : ∀ {a b text}, Bags a b → Text text → Text (substitute a text)
  text_nil : Text []
  text_append : ∀ {s t}, Text s → Text t → Text (s ++ t)
  text_of_piece : ∀ {t}, Piece t → Text t.value.toList
  pieces_of_block : ∀ {t file tokens}, Piece t → t.kind = .block →
    Token.scanMarkup t.value file = .ok tokens → ∀ u ∈ tokens, Piece u

namespace Lockstep

variable (L : Lockstep)

/-- How two results stand to each other: the left one is cut off, or both are the same
error or the same value and the sessions have gone on side by side. -/
inductive Outcome {α : Type} (p : Session × Session) (Good : α → Prop) :
    Except RenderError α × Session → Except RenderError α × Session → Prop where
  | cut {e session right} (hCut : L.Cut e) : Outcome p Good (.error e, session) right
  | error {e session other} (hSessions : L.Sessions (session, other))
      (hLater : L.Later p (session, other)) : Outcome p Good (.error e, session) (.error e, other)
  | ok {a session other} (hGood : Good a) (hSessions : L.Sessions (session, other))
      (hLater : L.Later p (session, other)) : Outcome p Good (.ok a, session) (.ok a, other)

/-- The same of two walks, which also end at the same place. The context of the right
one is `d`. -/
inductive Walked (p : Session × Session) (d : Context) :
    Except RenderError (List Char) × Rendering × Session →
    Except RenderError (List Char) × Rendering × Session → Prop where
  | cut {e r session right} (hCut : L.Cut e) : Walked p d (.error e, r, session) right
  | error {e r session other} (hSessions : L.Sessions (session, other))
      (hLater : L.Later p (session, other)) :
      Walked p d (.error e, r, session) (.error e, r.withContext d, other)
  | ok {text} {r : Rendering} {session other} (hText : L.Text text)
      (hSessions : L.Sessions (session, other)) (hLater : L.Later p (session, other)) :
      Walked p d (.ok text, r, session) (.ok text, r.withContext d, other)

/-- The same work for both renderings. -/
inductive Tasks (p : Session × Session) : Task → Task → Prop where
  | component {k l a b} (hComponents : L.Components p k l) (hBags : L.Bags a b) :
      Tasks p (.component k a) (.component l b)
  | content {tokens} (hPieces : ∀ t ∈ tokens, L.Piece t) :
      Tasks p (.content tokens) (.content tokens)
  | block {t : Token} (hPiece : L.Piece t) (hKind : t.kind = .block) :
      Tasks p (.block t.value) (.block t.value)
  | loop {t : Token} {head} (hHead : L.Head head) (hPiece : L.Piece t) (hKind : t.kind = .block) :
      Tasks p (.loop head t.value) (.loop head t.value)

/-- The same action for both renderings. -/
inductive Actions (p : Session × Session) : Action → Action → Prop where
  | emit {text} (hText : L.Text text) : Actions p (.emit text) (.emit text)
  | run {task other token} (hTasks : L.Tasks p task other) :
      Actions p (.run task token) (.run other token)
  | wrap {k l a b content token} (hComponents : L.Components p k l) (hBags : L.Bags a b)
      (hPieces : ∀ t ∈ content, L.Piece t) :
      Actions p (.wrap k a content token) (.wrap l b content token)
  | close : Actions p .close .close
  | fail (e : RenderError) : Actions p (.fail e) (.fail e)

/-- Two ways of doing work that do related work alike. -/
def Alike (left right : Nested) : Prop :=
  ∀ {p c d task other} (token : Token), L.Sessions p → L.Contexts p c d → L.Tasks p task other →
    L.Outcome p L.Text (left c task token p.1) (right d other token p.2)

variable {L} {p q : Session × Session} {c d : Context}

namespace Outcome

variable {α β : Type} {Good : α → Prop} {left right : Except RenderError α × Session}

/-- An outcome counted from an earlier pair of sessions. -/
theorem earlier (hLater : L.Later p q) (h : L.Outcome q Good left right) :
    L.Outcome p Good left right := by
  cases h with
  | cut hCut => exact .cut hCut
  | error hSessions h => exact .error hSessions (L.later_trans hLater h)
  | ok hGood hSessions h => exact .ok hGood hSessions (L.later_trans hLater h)

/-- A left result that is not cut off is that of the right. -/
theorem eq_of_uncut (h : L.Outcome p Good left right)
    (hUncut : ∀ e, left.1 = .error e → ¬L.Cut e) : left.1 = right.1 := by
  cases h with
  | cut hCut => exact absurd hCut (hUncut _ rfl)
  | error _ _ => rfl
  | ok _ _ _ => rfl

/-- The outcome of mapping the values. -/
theorem map {Fine : β → Prop} {f g : α → β} (h : L.Outcome p Good left right)
    (hGood : ∀ a, Good a → f a = g a ∧ Fine (f a)) :
    L.Outcome p Fine (left.1.map f, left.2) (right.1.map g, right.2) := by
  cases h with
  | cut hCut => exact .cut hCut
  | error hSessions hLater => exact .error hSessions hLater
  | ok hValue hSessions hLater =>
      obtain ⟨hSame, hFine⟩ := hGood _ hValue
      simp only [Except.map, ← hSame]
      exact .ok hFine hSessions hLater

end Outcome

theorem Tasks.later {task other : Task} (hLater : L.Later p q) (h : L.Tasks p task other) :
    L.Tasks q task other := by
  cases h with
  | component hComponents hBags => exact .component (L.components_later hLater hComponents) hBags
  | content hPieces => exact .content hPieces
  | block hPiece hKind => exact .block hPiece hKind
  | loop hHead hPiece hKind => exact .loop hHead hPiece hKind

/-- The outcome of a walk, its place left out. -/
theorem Walked.outcome {left right : Except RenderError (List Char) × Rendering × Session}
    (h : L.Walked p d left right) :
    L.Outcome p L.Text (left.1, left.2.2) (right.1, right.2.2) := by
  cases h with
  | cut hCut => exact .cut hCut
  | error hSessions hLater => exact .error hSessions hLater
  | ok hText hSessions hLater => exact .ok hText hSessions hLater

/-- A walk counted from an earlier pair of sessions. -/
theorem Walked.earlier (hLater : L.Later p q)
    {left right : Except RenderError (List Char) × Rendering × Session}
    (h : L.Walked q d left right) : L.Walked p d left right := by
  cases h with
  | cut hCut => exact .cut hCut
  | error hSessions h => exact .error hSessions (L.later_trans hLater h)
  | ok hText hSessions h => exact .ok hText hSessions (L.later_trans hLater h)

/-- The outcome of a walk that has written a text before. -/
theorem Walked.prepend {text : List Char} (hText : L.Text text) (hLater : L.Later p q)
    {left right : Except RenderError (List Char) × Rendering × Session}
    (h : L.Walked q d left right) :
    L.Walked p d (left.1.map (text ++ ·), left.2) (right.1.map (text ++ ·), right.2) := by
  cases h with
  | cut hCut => exact .cut hCut
  | error hSessions h => exact .error hSessions (L.later_trans hLater h)
  | ok hRest hSessions h => exact .ok (L.text_append hText hRest) hSessions (L.later_trans hLater h)

theorem Actions.isClose_eq {action other : Action} (h : L.Actions p action other) :
    action.isClose = other.isClose := by
  cases h <;> rfl

/-- Related actions are done alike. -/
theorem perform_alike {left right : Nested} (hNested : L.Alike left right)
    (hSessions : L.Sessions p) (hContexts : L.Contexts p c d) {action other : Action}
    (h : L.Actions p action other) :
    L.Outcome p L.Text (action.perform left c p.1) (other.perform right d p.2) := by
  cases h with
  | emit hText => exact .ok hText hSessions (L.later_refl p)
  | close => exact .ok L.text_nil hSessions (L.later_refl p)
  | fail e => exact .error hSessions (L.later_refl p)
  | run hTasks => exact hNested _ hSessions hContexts hTasks
  | @wrap k l a b content token hComponents hBags hPieces =>
      have hContent := hNested token hSessions hContexts (.content hPieces)
      unfold Action.perform
      dsimp only
      generalize left c (.content content) token p.1 = first at hContent
      generalize right d (.content content) token p.2 = second at hContent
      cases hContent with
      | cut hCut => exact .cut hCut
      | error hAfter hLater => exact .error hAfter hLater
      | ok hSlot hAfter hLater =>
          have hUser := L.bags_of_contexts hContexts
          have hTask := Tasks.component (L.components_later hLater hComponents)
            (L.wrap hBags hUser hSlot)
          have hRest := hNested token hAfter (L.contexts_later hLater hContexts) hTask
          exact hRest.earlier hLater

/-- The text of a raw element is made of those of its tokens. -/
theorem text_of_raw {name text : List Char} {tokens after : List Token}
    (hPieces : ∀ t ∈ tokens, L.Piece t) (h : splitRaw? name tokens = some (text, after)) :
    L.Text text := by
  induction tokens generalizing text with
  | nil => cases h
  | cons t rest ih =>
      have hFirst := L.text_of_piece (hPieces t List.mem_cons_self)
      unfold splitRaw? at h
      split at h
      · cases h
        exact hFirst
      · rw [Option.map_eq_some_iff] at h
        obtain ⟨⟨inner, last⟩, hFound, hEq⟩ := h
        cases hEq
        exact L.text_append hFirst (ih (fun u hu => hPieces u (List.mem_cons_of_mem t hu)) hFound)

section

variable {r : Rendering} {token : Token} (hSessions : L.Sessions p)
  (hContexts : L.Contexts p r.context d)

include hSessions hContexts

/-- A tag that opens an element asks both renderings for the same. -/
theorem openElement_alike (hPieces : ∀ t ∈ r.rest, L.Piece t) (hToken : L.Piece token) :
    L.Actions p (r.openElement p.1 token).1 ((r.withContext d).openElement p.2 token).1 ∧
    ((r.withContext d).openElement p.2 token).2 =
      (r.openElement p.1 token).2.withContext d := by
  have hWritten := L.text_of_piece hToken
  unfold Rendering.openElement
  simp only [Rendering.withContext]
  cases hParts : tagParts? token.value.toList with
  | none => exact ⟨.emit hWritten, rfl⟩
  | some parts =>
      obtain ⟨name, text⟩ := parts
      have hFound := L.components_found hSessions hContexts (String.ofList name)
      dsimp only
      split
      · -- a raw element takes the tokens up to its end with it
        cases hRaw : splitRaw? name r.rest with
        | none => exact ⟨.fail _, rfl⟩
        | some found =>
            exact ⟨.emit (L.text_append hWritten (text_of_raw hPieces hRaw)), rfl⟩
      · revert hFound
        generalize p.1.component? r.context.scopes (String.ofList name) = found
        generalize p.2.component? d.scopes (String.ofList name) = other
        intro hFound
        cases hFound with
        | none =>
            dsimp only
            split
            · exact ⟨.emit hWritten, rfl⟩
            · exact ⟨.emit hWritten, rfl⟩
        | some hComponents =>
            dsimp only
            cases hContent : splitContent? (String.ofList name) 0 r.rest with
            | none => exact ⟨.fail _, rfl⟩
            | some found =>
                obtain ⟨last, -, hSplit⟩ := splitContent?_eq_some hContent
                refine ⟨.wrap hComponents
                  (L.attributes (L.bags_of_contexts hContexts) hToken hParts) ?_, rfl⟩
                intro t ht
                exact hPieces t (hSplit ▸ List.mem_append_left _ ht)

/-- So does one that closes itself. -/
theorem closedElement_alike (hToken : L.Piece token) :
    L.Actions p (r.closedElement p.1 token) ((r.withContext d).closedElement p.2 token) := by
  have hWritten := L.text_of_piece hToken
  unfold Rendering.closedElement
  cases hParts : tagParts? token.value.toList with
  | none => exact .emit hWritten
  | some parts =>
      obtain ⟨name, text⟩ := parts
      have hFound := L.components_found hSessions hContexts (String.ofList name)
      simp only [Rendering.withContext_context]
      revert hFound
      generalize p.1.component? r.context.scopes (String.ofList name) = found
      generalize p.2.component? d.scopes (String.ofList name) = other
      intro hFound
      cases hFound with
      | none => exact .emit hWritten
      | some hComponents =>
          exact .run (.component hComponents
            (L.attributes (L.bags_of_contexts hContexts) hToken hParts))

omit hSessions hContexts in
theorem closeParen_alike (serve : Bool) (hToken : L.Piece token) :
    L.Actions p (r.closeParen serve token).1 (r.closeParen serve token).1 := by
  have hWritten := L.text_of_piece hToken
  unfold Rendering.closeParen
  split
  · split
    · exact .emit hWritten
    · exact .emit hWritten
  · split
    · exact .close
    · exact .emit hWritten
  · exact .emit hWritten

omit hSessions hContexts in
theorem closeElement_alike (hToken : L.Piece token) :
    L.Actions p (r.closeElement token).1 (r.closeElement token).1 := by
  have hWritten := L.text_of_piece hToken
  unfold Rendering.closeElement
  split
  · exact .emit hWritten
  · dsimp only
    split
    · exact .fail _
    · split
      · exact .emit hWritten
      · exact .fail _

omit hSessions hContexts in
/-- A reading that is the same for both renderings asks both for the same. -/
theorem readAction_alike {m n : Reading Action} (hSame : m r.rest = n r.rest)
    (hActions : ∀ action, (m r.rest).value = .ok action → L.Actions p action action) :
    L.Actions p (r.readAction m).1 ((r.withContext d).readAction n).1 ∧
    ((r.withContext d).readAction n).2 = (r.readAction m).2.withContext d := by
  unfold Rendering.readAction Rendering.read
  simp only [Rendering.withContext_rest, ← hSame]
  cases hValue : (m r.rest).value with
  | error e => exact ⟨.fail e, rfl⟩
  | ok action => exact ⟨hActions action hValue, rfl⟩

/-- A step asks both renderings for the same and leaves them at the same place. -/
theorem step_alike (serve : Bool) (hPieces : ∀ t ∈ r.rest, L.Piece t) (hToken : L.Piece token) :
    L.Actions p (r.step p.1 serve token).1 ((r.withContext d).step p.2 serve token).1 ∧
    ((r.withContext d).step p.2 serve token).2 =
      (r.step p.1 serve token).2.withContext d := by
  have hWritten := L.text_of_piece hToken
  unfold Rendering.step
  split
  · exact ⟨.emit hWritten, rfl⟩
  · rw [Rendering.closeParen_withContext]
    exact ⟨closeParen_alike serve hToken, rfl⟩
  · exact openElement_alike hSessions hContexts hPieces hToken
  · rw [Rendering.closeElement_withContext]
    exact ⟨closeElement_alike hToken, rfl⟩
  · exact ⟨closedElement_alike hSessions hContexts hToken, rfl⟩
  · simp only [Rendering.withContext_context, ← L.callText_eq hSessions hContexts hToken]
    cases hCall : r.context.callText p.1 token with
    | error e => exact ⟨.fail e, rfl⟩
    | ok text => exact ⟨.emit (L.text_of_call hSessions hContexts hToken hCall), rfl⟩
  · apply readAction_alike
    · apply readBranch_congr
      intro t ht _
      exact L.conditionHolds_eq hSessions hContexts (hPieces t ht)
    · intro action hAction
      rcases readBranch_eq_ok hAction with rfl | ⟨t, ht, hKind, rfl⟩
      · exact .emit L.text_nil
      · exact .run (.block (hPieces t ht) hKind)
  · apply readAction_alike
    · apply readLoop_congr
      intro t ht _
      exact L.loopHead_eq hContexts (hPieces t ht)
    · intro action hAction
      obtain ⟨t, ht, head, hHead, block, hBlock, hKind, rfl⟩ := readLoop_eq_ok hAction
      have hGood := L.head_of_loop hContexts (hPieces t ht) hHead
      exact .run (.loop hGood (hPieces block hBlock) hKind)
  · exact ⟨.emit hWritten, rfl⟩

end

/-- Two walks over the same tokens stay in step. -/
theorem walk_alike {left right : Nested} (hNested : L.Alike left right) (serve : Bool)
    {r : Rendering} (hSessions : L.Sessions p) (hContexts : L.Contexts p r.context d)
    (hPieces : ∀ t ∈ r.rest, L.Piece t) :
    L.Walked p d (Rendering.walk left serve r p.1)
      (Rendering.walk right serve (r.withContext d) p.2) := by
  induction r using Rendering.walk_induction generalizing p with
  | nil r hRest =>
      rw [Rendering.walk_nil left serve p.1 hRest,
        Rendering.walk_nil right serve (r := r.withContext d) p.2 hRest,
        Rendering.finish_withContext]
      cases (r.finish serve).1 with
      | error e => exact .error hSessions (L.later_refl p)
      | ok _ => exact .ok L.text_nil hSessions (L.later_refl p)
  | misplaced r token rest expectation hRest misplaced =>
      rw [Rendering.walk_misplaced left serve p.1 hRest misplaced,
        Rendering.walk_misplaced right serve (r := r.withContext d) p.2 hRest misplaced]
      exact .error hSessions (L.later_refl p)
  | placed r token rest hRest placed ih =>
      have hAll : ∀ t ∈ rest, L.Piece t :=
        fun t ht => hPieces t (hRest ▸ List.mem_cons_of_mem token ht)
      obtain ⟨hActions, hPlace⟩ := step_alike (r := r.moveTo rest) hSessions hContexts serve hAll
        (hPieces token (hRest ▸ List.mem_cons_self))
      rcases hStep : (r.moveTo rest).step p.1 serve token with ⟨action, after⟩
      rcases hOther : ((r.moveTo rest).withContext d).step p.2 serve token with ⟨other, place⟩
      rw [hStep, hOther] at hActions hPlace
      dsimp only at hActions hPlace
      subst hPlace
      have hDone := perform_alike hNested hSessions hContexts hActions
      have hContext := Rendering.step_keeps_context hStep
      rcases hLeft : action.perform left r.context p.1 with ⟨result, session⟩
      rcases hRight : other.perform right d p.2 with ⟨result', session'⟩
      rw [hLeft, hRight] at hDone
      cases hDone with
      | cut hCut =>
          rw [Rendering.walk_of_error hRest placed hStep hLeft]
          exact .cut hCut
      | error hAfter hLater =>
          rw [Rendering.walk_of_error hRest placed hStep hLeft,
            Rendering.walk_of_error (r := r.withContext d) hRest placed hOther hRight]
          exact .error hAfter hLater
      | ok hText hAfter hLater =>
          have hSame := hActions.isClose_eq
          cases hClose : action.isClose with
          | true =>
              rw [Rendering.walk_of_close hRest placed hStep hLeft hClose,
                Rendering.walk_of_close (r := r.withContext d) hRest placed hOther hRight
                  (hSame ▸ hClose)]
              exact .ok hText hAfter hLater
          | false =>
              rw [Rendering.walk_of_ok hRest placed hStep hLeft hClose,
                Rendering.walk_of_ok (r := r.withContext d) hRest placed hOther hRight
                  (hSame ▸ hClose)]
              have hLess := Rendering.step_length_lt hRest hStep
              have hWalked := ih after hLess hAfter
                (hContext ▸ L.contexts_later hLater hContexts)
                (fun t ht => hAll t ((Rendering.step_suffix hStep).subset ht))
              exact hWalked.prepend hText hLater

/-- The tokens of some markup are rendered alike from the first to the last. -/
theorem renderBody_alike {left right : Nested} (hNested : L.Alike left right)
    (hSessions : L.Sessions p) (hContexts : L.Contexts p c d) {tokens : List Token}
    (hPieces : ∀ t ∈ tokens, L.Piece t) :
    L.Outcome p L.Text (renderBody left tokens c p.1) (renderBody right tokens d p.2) := by
  have hWalked := walk_alike hNested false (r := (Rendering.start tokens c).enter) hSessions
    hContexts hPieces
  rw [← Rendering.withContext_enter,
    Rendering.start_withContext tokens c d (L.file_eq hContexts)] at hWalked
  exact hWalked.outcome

/-- The items of a loop are rendered alike. -/
theorem renderItems_alike {left right : Nested} (hNested : L.Alike left right)
    {tokens : List Token} (hPieces : ∀ t ∈ tokens, L.Piece t) {head : LoopHead}
    (hHead : L.Head head) {items : List Data} (hItems : ∀ item ∈ items, item ∈ head.items)
    (index : Nat) (hSessions : L.Sessions p) (hContexts : L.Contexts p c d) :
    L.Outcome p L.Text (renderItems left tokens c head.binding index items p.1)
      (renderItems right tokens d head.binding index items p.2) := by
  induction items generalizing p index with
  | nil => exact .ok L.text_nil hSessions (L.later_refl p)
  | cons item rest ih =>
      have hBags := L.forItem (L.bags_of_contexts hContexts) hHead
        (hItems item List.mem_cons_self) index
      have hFirst := renderBody_alike hNested hSessions (L.contexts_withBag hContexts hBags) hPieces
      unfold renderItems
      dsimp only
      generalize renderBody left tokens _ p.1 = first at hFirst
      generalize renderBody right tokens _ p.2 = second at hFirst
      cases hFirst with
      | cut hCut => exact .cut hCut
      | error hAfter hLater => exact .error hAfter hLater
      | ok hText hAfter hLater =>
          have hRest := ih (fun i hi => hItems i (List.mem_cons_of_mem item hi)) (index + 1)
            hAfter (L.contexts_later hLater hContexts)
          apply (hRest.earlier hLater).map
          intro text hLast
          rw [← L.substitute_eq hBags hText]
          exact ⟨rfl, L.text_append (L.text_substitute hBags hText) hLast⟩

theorem isSome_eq_of_rel {α β : Type} {R : α → β → Prop} {found : Option α} {other : Option β}
    (h : Option.Rel R found other) : found.isSome = other.isSome := by
  cases h <;> rfl

theorem isDynamic_eq (hSessions : L.Sessions p) (hContexts : L.Contexts p c d) (t : Token) :
    t.isDynamic p.1 c.scopes = t.isDynamic p.2 d.scopes := by
  have hFound (name : String) : (p.1.component? c.scopes name).isSome =
      (p.2.component? d.scopes name).isSome :=
    isSome_eq_of_rel (L.components_found hSessions hContexts name)
  unfold Token.isDynamic
  simp only [hFound]

/-- A fragment is filled alike for all items. -/
theorem fillItems_alike {a b : Bag} (hBags : L.Bags a b) {head : LoopHead} (hHead : L.Head head)
    {fragment : List Char} (hText : L.Text fragment) :
    fillItems fragment a head.binding head.items = fillItems fragment b head.binding head.items ∧
    L.Text (fillItems fragment a head.binding head.items) := by
  have hEach : ∀ entry ∈ head.items.zipIdx,
      L.Bags (a.forItem head.binding entry.1 entry.2) (b.forItem head.binding entry.1 entry.2) := by
    intro entry hEntry
    exact L.forItem hBags hHead (List.fst_mem_of_mem_zipIdx hEntry) entry.2
  unfold fillItems
  generalize head.items.zipIdx = entries at hEach
  induction entries with
  | nil => exact ⟨rfl, L.text_nil⟩
  | cons entry rest ih =>
      have hFirst := hEach entry List.mem_cons_self
      obtain ⟨hSame, hRest⟩ := ih fun e he => hEach e (List.mem_cons_of_mem entry he)
      simp only [List.flatMap_cons]
      refine ⟨?_, L.text_append (L.text_substitute hFirst hText) hRest⟩
      rw [L.substitute_eq hFirst hText, hSame]

/-- A loop is rendered alike, either way. -/
theorem renderLoop_alike {left right : Nested} (hNested : L.Alike left right)
    (hSessions : L.Sessions p) (hContexts : L.Contexts p c d) {head : LoopHead}
    (hHead : L.Head head) {t : Token} (hPiece : L.Piece t) (hKind : t.kind = .block) :
    L.Outcome p L.Text (renderLoop left c head t.value p.1)
      (renderLoop right d head t.value p.2) := by
  unfold renderLoop
  have hFile : Token.scanMarkup t.value d.file = Token.scanMarkup t.value c.file := by
    rw [L.file_eq hContexts]
  cases hTokens : Token.scanMarkup t.value c.file with
  | error e =>
      rw [hFile, hTokens]
      exact .error hSessions (L.later_refl p)
  | ok tokens =>
      rw [hFile, hTokens]
      have hPieces := L.pieces_of_block hPiece hKind hTokens
      obtain ⟨hOpened, hLater, hBlock⟩ := L.blocks hSessions hContexts
      have hDynamic : tokens.any (Token.isDynamic (p.1.blockScopes c.scopes).1
          (p.1.blockScopes c.scopes).2) =
          tokens.any (Token.isDynamic (p.2.blockScopes d.scopes).1 (p.2.blockScopes d.scopes).2) :=
        congrArg tokens.any (funext (isDynamic_eq hOpened hBlock))
      dsimp only
      rw [hDynamic]
      split
      · have hItems := renderItems_alike hNested hPieces hHead (fun _ h => h) 0 hOpened hBlock
        exact hItems.earlier hLater
      · have hBody := renderBody_alike hNested hOpened hBlock hPieces
        have hFill (fragment : List Char) (hText : L.Text fragment) :=
          fillItems_alike (L.bags_of_contexts hContexts) hHead hText
        exact (hBody.earlier hLater).map hFill

/-- The block of a branch is rendered alike. -/
theorem renderBlock_alike {left right : Nested} (hNested : L.Alike left right)
    (hSessions : L.Sessions p) (hContexts : L.Contexts p c d) {t : Token} (hPiece : L.Piece t)
    (hKind : t.kind = .block) :
    L.Outcome p L.Text (renderBlock left c t.value p.1) (renderBlock right d t.value p.2) := by
  unfold renderBlock
  have hFile : Token.scanMarkup t.value d.file = Token.scanMarkup t.value c.file := by
    rw [L.file_eq hContexts]
  cases hTokens : Token.scanMarkup t.value c.file with
  | error e =>
      rw [hFile, hTokens]
      exact .error hSessions (L.later_refl p)
  | ok tokens =>
      rw [hFile, hTokens]
      obtain ⟨hOpened, hLater, hBlock⟩ := L.blocks hSessions hContexts
      have hBody := renderBody_alike hNested hOpened hBlock
        (L.pieces_of_block hPiece hKind hTokens)
      exact hBody.earlier hLater

/-- Components are invoked alike by two ways of doing the work within them. -/
def ComponentsAlike (L : Lockstep) (resolve : Resolver) (left right : Nested) : Prop :=
  ∀ {p k l a b}, L.Sessions p → L.Components p k l → L.Bags a b →
    L.Outcome p L.Text (renderComponent left resolve k a p.1)
      (renderComponent right resolve l b p.2)

/-- A task is done alike, given that components are. -/
theorem task_alike {resolve : Resolver} {left right : Nested} (hNested : L.Alike left right)
    (hComponent : L.ComponentsAlike resolve left right) (hSessions : L.Sessions p)
    (hContexts : L.Contexts p c d) {task other : Task} (h : L.Tasks p task other) :
    L.Outcome p L.Text (task.render left resolve c p.1) (other.render right resolve d p.2) := by
  cases h with
  | component hComponents hBags => exact hComponent hSessions hComponents hBags
  | content hPieces =>
      have hBody := renderBody_alike hNested hSessions hContexts hPieces
      have hBags := L.bags_of_contexts hContexts
      have hFill (text : List Char) (hText : L.Text text) :=
        And.intro (L.substitute_eq hBags hText) (L.text_substitute hBags hText)
      exact hBody.map hFill
  | block hPiece hKind => exact renderBlock_alike hNested hSessions hContexts hPiece hKind
  | loop hHead hPiece hKind =>
      exact renderLoop_alike hNested hSessions hContexts hHead hPiece hKind

/-- Work with levels left for it is done alike, if the right rendering may have `more`
levels than the left one: what must be known is how it ends at the lowest of the left one
and that components are invoked alike given that the work in them is. -/
theorem nestedWithin_alike {resolve : Resolver} (more : Nat)
    (hLowest : L.Alike (nestedWithin resolve 0) (nestedWithin resolve more))
    (hComponent : ∀ left right : Nested, L.Alike left right → L.ComponentsAlike resolve left right)
    (levels : Nat) :
    L.Alike (nestedWithin resolve levels) (nestedWithin resolve (levels + more)) := by
  induction levels with
  | zero =>
      rw [Nat.zero_add]
      exact hLowest
  | succ levels ih =>
      intro p c d task other token hSessions hContexts hTasks
      rw [Nat.succ_add]
      unfold nestedWithin
      dsimp only
      obtain ⟨hEntered, hInside⟩ := L.enter hSessions
      have hDone := task_alike ih (hComponent _ _ ih) hEntered
        (L.contexts_later hInside hContexts) (hTasks.later hInside)
      generalize task.render (nestedWithin resolve levels) resolve c p.1.enter = first at hDone
      generalize other.render (nestedWithin resolve (levels + more)) resolve d p.2.enter = second
        at hDone
      cases hDone with
      | cut hCut => exact .cut hCut
      | error hAfter hLater =>
          obtain ⟨hLeft, hOutside⟩ := L.leave hAfter
          exact .error hLeft (L.later_trans hInside (L.later_trans hLater hOutside))
      | ok hText hAfter hLater =>
          obtain ⟨hLeft, hOutside⟩ := L.leave hAfter
          exact .ok hText hLeft (L.later_trans hInside (L.later_trans hLater hOutside))

end Lockstep

end HtmlTemplate
