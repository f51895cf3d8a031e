import HtmlTemplate.Proofs.Render.Balance
import HtmlTemplate.Proofs.Source.Tags

/-! Tokens that are copied. Rendering writes them as they stand, in a body of `serve` and in any
other, and goes on behind them with nothing open that was not open before. -/
namespace HtmlTemplate

/-- A text in front of what some rendering gives. -/
def prepend {α : Type} (text : List Char) (done : Except RenderError (List Char) × α) :
    Except RenderError (List Char) × α :=
  (done.1.map (text ++ ·), done.2)

theorem prepend_prepend {α : Type} (first second : List Char)
    (done : Except RenderError (List Char) × α) :
    prepend first (prepend second done) = prepend (first ++ second) done :=
  Prod.ext (map_append_map first second done.1) rfl

theorem prepend_nil {α : Type} (done : Except RenderError (List Char) × α) :
    prepend [] done = done := by
  obtain ⟨result, rest⟩ := done
  cases result <;> rfl

/-- Wherever rendering comes upon these tokens, in a session and with the names of some frames,
it copies them and goes on. -/
def Copied (session : Session) (scopes : Scopes) (tokens : List Token) : Prop :=
  ∀ (nested : Nested) (serve : Bool) (r : Rendering) (rest : List Token),
    r.context.scopes = scopes → r.rest = tokens ++ rest →
      Rendering.walk nested serve r session =
        prepend (valuesText tokens) (Rendering.walk nested serve (r.moveTo rest) session)

section

variable {session : Session} {scopes : Scopes} {t opening closing : Token}
  {tokens inner rest : List Token} {name attributes : List Char}

theorem Rendering.moveTo_of_rest {r : Rendering} (h : r.rest = rest) : r.moveTo rest = r := by
  rw [moveTo, ← h]

theorem copied_nil : Copied session scopes [] := by
  intro nested serve r rest _ hRest
  rw [Rendering.moveTo_of_rest (show r.rest = rest from hRest)]
  exact (prepend_nil _).symm

theorem Copied.append (h : Copied session scopes tokens) (hRest : Copied session scopes rest) :
    Copied session scopes (tokens ++ rest) := by
  intro nested serve r behind hScopes hTokens
  rw [h nested serve r (rest ++ behind) hScopes (by rw [hTokens, List.append_assoc]),
    hRest nested serve (r.moveTo (rest ++ behind)) behind hScopes rfl, prepend_prepend,
    valuesText_append]
  rfl

/-- A token by itself. -/
theorem copied_of_step (hPlaced : t.kind.misplaced? = none)
    (hStep : ∀ (r : Rendering) (serve : Bool), r.context.scopes = scopes →
      r.step session serve t = (.emit t.value.toList, r)) : Copied session scopes [t] := by
  intro nested serve r rest hScopes hRest
  rw [valuesText_single]
  exact Rendering.walk_of_ok hRest hPlaced (hStep (r.moveTo rest) serve hScopes) rfl rfl

/-- A text, a blank or a character that begins nothing. -/
theorem copied_of_kind (hKind : t.kind = .text ∨ t.kind = .blank ∨ t.kind = .unknown) :
    Copied session scopes [t] := by
  rcases hKind with hKind | hKind | hKind <;>
    exact copied_of_step (by rw [hKind]; rfl) fun r serve _ => by rw [Rendering.step, hKind]

/-- A reference stays for substitution. -/
theorem copied_reference (hKind : t.kind = .reference) : Copied session scopes [t] :=
  copied_of_step (by rw [hKind]; rfl) fun r serve _ => by rw [Rendering.step, hKind]

theorem copied_of_kinds (h : ∀ t ∈ tokens, t.kind = .text ∨ t.kind = .blank ∨ t.kind = .unknown) :
    Copied session scopes tokens := by
  induction tokens with
  | nil => exact copied_nil
  | cons t rest ih =>
      obtain ⟨hFirst, hRest⟩ := List.forall_mem_cons.mp h
      have hHead : Copied session scopes [t] := copied_of_kind hFirst
      exact hHead.append (ih hRest)

/-- Tokens that are copied between two others, of which the second undoes what the first one
has done to what is open. -/
theorem Copied.enclosed (h : Copied session scopes inner) {nested : Nested} {serve : Bool}
    {r within : Rendering} (hScopes : within.context.scopes = scopes)
    (hRest : r.rest = opening :: (inner ++ closing :: rest))
    (hOpenPlaced : opening.kind.misplaced? = none) (hClosePlaced : closing.kind.misplaced? = none)
    (hOpen : (r.moveTo (inner ++ closing :: rest)).step session serve opening =
      (.emit opening.value.toList, within.moveTo (inner ++ closing :: rest)))
    (hClose : (within.moveTo rest).step session serve closing =
      (.emit closing.value.toList, r.moveTo rest)) :
    Rendering.walk nested serve r session =
      prepend (valuesText (opening :: (inner ++ [closing])))
        (Rendering.walk nested serve (r.moveTo rest) session) := by
  have hFirst : Rendering.walk nested serve r session =
      prepend opening.value.toList
        (Rendering.walk nested serve (within.moveTo (inner ++ closing :: rest)) session) :=
    Rendering.walk_of_ok hRest hOpenPlaced hOpen rfl rfl
  have hInner : Rendering.walk nested serve (within.moveTo (inner ++ closing :: rest)) session =
      prepend (valuesText inner)
        (Rendering.walk nested serve (within.moveTo (closing :: rest)) session) :=
    h nested serve (within.moveTo (inner ++ closing :: rest)) (closing :: rest) hScopes rfl
  have hLast : Rendering.walk nested serve (within.moveTo (closing :: rest)) session =
      prepend closing.value.toList (Rendering.walk nested serve (r.moveTo rest) session) :=
    Rendering.walk_of_ok (r := within.moveTo (closing :: rest)) rfl hClosePlaced hClose rfl rfl
  rw [hFirst, hInner, hLast, prepend_prepend, prepend_prepend, valuesText_cons,
    valuesText_append, valuesText_single, List.append_assoc]

/-- Parentheses around tokens that are copied. -/
theorem Copied.parens (h : Copied session scopes inner) (hOpening : opening.kind = .openParen)
    (hClosing : closing.kind = .closeParen) :
    Copied session scopes (opening :: (inner ++ [closing])) := by
  intro nested serve r rest hScopes hRest
  let within : Rendering := { r with opened := ⟨.paren, opening⟩ :: r.opened }
  have hTokens : r.rest = opening :: (inner ++ closing :: rest) := by simp [hRest]
  have hOpen : (r.moveTo (inner ++ closing :: rest)).step session serve opening =
      (.emit opening.value.toList, within.moveTo (inner ++ closing :: rest)) := by
    rw [Rendering.step, hOpening]
    rfl
  have hClose : (within.moveTo rest).step session serve closing =
      (.emit closing.value.toList, r.moveTo rest) := by
    rw [Rendering.step, hClosing]
    rfl
  have hWithin : within.context.scopes = scopes := hScopes
  exact h.enclosed hWithin hTokens (by rw [hOpening]; rfl) (by rw [hClosing]; rfl) hOpen hClose

/-- An element around tokens that are copied. -/
theorem Copied.element (h : Copied session scopes inner) (hOpening : opening.kind = .openingTag)
    (hClosing : closing.kind = .closingTag)
    (hParts : tagParts? opening.value.toList = some (name, attributes))
    (hName : closingName? closing.value.toList = some name)
    (hRaw : isRawElement (String.ofList name) = false)
    (hVoid : isVoidElement (String.ofList name) = false)
    (hComponent : session.component? scopes (String.ofList name) = none) :
    Copied session scopes (opening :: (inner ++ [closing])) := by
  intro nested serve r rest hScopes hRest
  let within : Rendering :=
    { r with opened := ⟨.element (String.ofList name), opening⟩ :: r.opened }
  have hTokens : r.rest = opening :: (inner ++ closing :: rest) := by simp [hRest]
  have hOpen : (r.moveTo (inner ++ closing :: rest)).step session serve opening =
      (.emit opening.value.toList, within.moveTo (inner ++ closing :: rest)) := by
    have hNone : session.component? (r.moveTo (inner ++ closing :: rest)).context.scopes
        (String.ofList name) = none := hScopes ▸ hComponent
    simp only [Rendering.step, hOpening, Rendering.openElement, hParts, hRaw, hVoid, hNone,
      Bool.false_eq_true, ↓reduceIte]
    rfl
  have hClose : (within.moveTo rest).step session serve closing =
      (.emit closing.value.toList, r.moveTo rest) := by
    simp [Rendering.step, hClosing, Rendering.closeElement, hName, within, Rendering.moveTo,
      Pending.isParen]
  have hWithin : within.context.scopes = scopes := hScopes
  exact h.enclosed hWithin hTokens (by rw [hOpening]; rfl) (by rw [hClosing]; rfl) hOpen hClose

/-- A raw element, whatever names are in scope. -/
theorem copied_raw (session : Session) (scopes : Scopes) (hKind : t.kind = .openingTag)
    (hParts : tagParts? t.value.toList = some (name, attributes))
    (hRaw : isRawElement (String.ofList name) = true)
    (hInner : ∀ u ∈ inner, u.closesRaw name = false) (hClosing : closing.closesRaw name = true) :
    Copied session scopes (t :: (inner ++ [closing])) := by
  intro nested serve r rest _ hRest
  have hTokens : r.rest = t :: (inner ++ closing :: rest) := by simp [hRest]
  have hStep : (r.moveTo (inner ++ closing :: rest)).step session serve t =
      (.emit (valuesText (t :: (inner ++ [closing]))), r.moveTo rest) := by
    simp only [Rendering.step, hKind, Rendering.openElement, hParts, hRaw, ↓reduceIte,
      Rendering.moveTo_rest, splitRaw?_append hInner hClosing, valuesText_cons]
    rfl
  exact Rendering.walk_of_ok hTokens (by rw [hKind]; rfl) hStep rfl rfl

end

section

variable {nested : Nested} {context : Context} {session : Session} {tokens : List Token}

/-- Rendered by themselves, tokens that are copied come to their text. -/
theorem Copied.renderBody_eq (h : Copied session context.scopes tokens) (nested : Nested) :
    renderBody nested tokens context session = (.ok (valuesText tokens), session) := by
  let r : Rendering := (Rendering.start tokens context).enter
  have hWalk := h nested false r [] rfl (List.append_nil tokens).symm
  rw [Rendering.walk_nil (r := r.moveTo []) nested false session rfl] at hWalk
  unfold renderBody Rendering.body
  rw [hWalk]
  exact congrArg (fun text => (Except.ok text, session)) (List.append_nil _)

/-- For each item they come to their text with the parameters of the item put in. -/
theorem Copied.renderItems_eq (h : Copied session context.scopes tokens) (nested : Nested)
    (binding : String) (index : Nat) (items : List Data) :
    renderItems nested tokens context binding index items session =
      (.ok ((items.zipIdx index).flatMap fun (item, index) =>
        substitute (context.bag.forItem binding item index) (valuesText tokens)), session) := by
  induction items generalizing index with
  | nil => rfl
  | cons item rest ih =>
      have hItem (bag : Bag) : Copied session { context with bag }.scopes tokens := h
      unfold renderItems
      dsimp only
      rw [(hItem _).renderBody_eq nested]
      dsimp only
      rw [ih]
      rfl

/-- Both ways through a loop come to that. -/
theorem renderLoop_of_copied {source : String} (nested : Nested) (head : LoopHead)
    (hScan : Token.scanMarkup source context.file = .ok tokens)
    (h : ∀ session scopes, Copied session scopes tokens) :
    renderLoop nested context head source session =
      (.ok (fillItems (valuesText tokens) context.bag head.binding head.items),
        (session.blockScopes context.scopes).1) := by
  have hBlock := h (session.blockScopes context.scopes).1
    { context with scopes := (session.blockScopes context.scopes).2 }.scopes
  unfold renderLoop
  rw [hScan]
  dsimp only
  split
  · exact hBlock.renderItems_eq nested head.binding 0 head.items
  · rw [hBlock.renderBody_eq nested]
    rfl

theorem renderBlock_of_copied {source : String} (nested : Nested)
    (hScan : Token.scanMarkup source context.file = .ok tokens)
    (h : ∀ session scopes, Copied session scopes tokens) :
    renderBlock nested context source session =
      (.ok (valuesText tokens), (session.blockScopes context.scopes).1) := by
  have hBlock := h (session.blockScopes context.scopes).1
    { context with scopes := (session.blockScopes context.scopes).2 }.scopes
  unfold renderBlock
  rw [hScan]
  exact hBlock.renderBody_eq nested

end

end HtmlTemplate
