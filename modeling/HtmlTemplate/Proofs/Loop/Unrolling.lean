import HtmlTemplate.Proofs.Render.Walk

/-! A loop is its block unrolled. The renderer has two ways through a loop: a block
that may mean something else for each item is rendered once per item, any other is
rendered once for all. Both agree with the plain unrolling, because a token that is
not dynamic reads neither the parameters nor the session and hands out no work. -/
namespace HtmlTemplate

/-- One turn of a loop: the block is rendered with the parameters of the item, and
these are put in place of the references of what came out. -/
def loopTurn (nested : Nested) (tokens : List Token) (context : Context) (binding : String) :
    Data × Nat → ExceptT RenderError (StateM Session) (List Char)
  | (item, index) => do
    let bag := (context.bag.insert binding item).insert loopIndexName (.ofInt index)
    let fragment ← ExceptT.mk (renderBody nested tokens { context with bag })
    return substitute bag fragment

/-- A loop unrolled: the block is cut into tokens, frames are opened for it, and the
turns are taken one after the other up to the first that fails. -/
def unrolledLoop (nested : Nested) (context : Context) (head : LoopHead) (source : String) :
    ExceptT RenderError (StateM Session) (List Char) := do
  match Token.scanMarkup source context.file with
  | .error e => throw (.scan e)
  | .ok tokens =>
    let scopes ← modifyGet fun session => (session.blockScopes context.scopes).swap
    let turns ← head.items.zipIdx.mapM
      (loopTurn nested tokens { context with scopes } head.binding)
    return turns.flatten

/-- An action that needs no work of its own: it writes a text, ends the body or
fails. -/
inductive Action.IsFlat : Action → Prop where
  | emit (text : List Char) : IsFlat (.emit text)
  | close : IsFlat .close
  | fail (error : RenderError) : IsFlat (.fail error)

theorem Action.IsFlat.perform {action : Action} (h : action.IsFlat) (nested other : Nested)
    (context changed : Context) (session : Session) :
    action.perform other changed session =
      ((action.perform nested context session).1, session) := by
  cases h with
  | emit text => rfl
  | close => rfl
  | fail error => rfl

theorem Token.element?_eq_some {t : Token} {name attributes : List Char}
    (h : tagParts? t.value.toList = some (name, attributes)) :
    t.element? = some (String.ofList name) := by
  simp [Token.element?, h]

/-- A tag that is not dynamic names no component. -/
theorem Token.component?_of_not_dynamic {t : Token} {session : Session} {scopes : Scopes}
    {name attributes : List Char} (hKind : t.kind = .openingTag ∨ t.kind = .selfClosingTag)
    (hStatic : t.isDynamic session scopes = false)
    (hParts : tagParts? t.value.toList = some (name, attributes)) :
    session.component? scopes (String.ofList name) = none := by
  have hElement := Token.element?_eq_some hParts
  rcases hKind with hKind | hKind
  · simpa [Token.isDynamic, hKind, hElement] using hStatic
  · simpa [Token.isDynamic, hKind, hElement] using hStatic

namespace Rendering

theorem openElement_static {r : Rendering} {session : Session} {token : Token}
    (hKind : token.kind = .openingTag)
    (hStatic : token.isDynamic session r.context.scopes = false) (c : Context)
    (hScopes : c.scopes = r.context.scopes) :
    (r.openElement session token).1.IsFlat ∧
    (r.withContext c).openElement session token =
      ((r.openElement session token).1, (r.openElement session token).2.withContext c) := by
  unfold openElement
  simp only [withContext, hScopes]
  split
  · exact ⟨.emit _, rfl⟩
  · next name attributes hParts =>
    rw [Token.component?_of_not_dynamic (Or.inl hKind) hStatic hParts]
    split
    · split
      · exact ⟨.emit _, rfl⟩
      · exact ⟨.fail _, rfl⟩
    · dsimp only
      split
      · exact ⟨.emit _, rfl⟩
      · exact ⟨.emit _, rfl⟩

theorem closedElement_static {r : Rendering} {session : Session} {token : Token}
    (hKind : token.kind = .selfClosingTag)
    (hStatic : token.isDynamic session r.context.scopes = false) (c : Context)
    (hScopes : c.scopes = r.context.scopes) :
    (r.closedElement session token).IsFlat ∧
    (r.withContext c).closedElement session token = r.closedElement session token := by
  unfold closedElement
  simp only [withContext, hScopes]
  split
  · exact ⟨.emit _, rfl⟩
  · next name attributes hParts =>
    rw [Token.component?_of_not_dynamic (Or.inr hKind) hStatic hParts]
    exact ⟨.emit _, rfl⟩

theorem closeParen_flat (r : Rendering) (serve : Bool) (token : Token) :
    (r.closeParen serve token).1.IsFlat := by
  unfold closeParen
  split
  · split
    · exact .emit _
    · exact .emit _
  · split
    · exact .close
    · exact .emit _
  · exact .emit _

theorem closeElement_flat (r : Rendering) (token : Token) :
    (r.closeElement token).1.IsFlat := by
  unfold closeElement
  split
  · exact .emit _
  · dsimp only
    split
    · exact .fail _
    · split
      · exact .emit _
      · exact .fail _

/-- A step at a token that is not dynamic hands out no work, and it is the same step
under all parameters. -/
theorem step_static {r : Rendering} {session : Session} (serve : Bool) {token : Token}
    (hStatic : token.isDynamic session r.context.scopes = false) (c : Context)
    (hScopes : c.scopes = r.context.scopes) :
    (r.step session serve token).1.IsFlat ∧
    (r.withContext c).step session serve token =
      ((r.step session serve token).1, (r.step session serve token).2.withContext c) := by
  unfold step
  split
  · exact ⟨.emit _, rfl⟩
  · exact ⟨r.closeParen_flat serve token, r.closeParen_withContext serve token c⟩
  · next hKind => exact openElement_static hKind hStatic c hScopes
  · exact ⟨r.closeElement_flat token, r.closeElement_withContext token c⟩
  · next hKind =>
    obtain ⟨flat, same⟩ := closedElement_static hKind hStatic c hScopes
    exact ⟨flat, by rw [same]⟩
  · next hKind => simp [Token.isDynamic, hKind] at hStatic
  · next hKind => simp [Token.isDynamic, hKind] at hStatic
  · next hKind => simp [Token.isDynamic, hKind] at hStatic
  · exact ⟨.emit _, rfl⟩

/-- Markup without dynamic tokens is rendered alike under all parameters and with all
ways of doing work, and leaves the session as it was. -/
theorem walk_static (nested : Nested) (serve : Bool) {r : Rendering} {session : Session}
    (hStatic : ∀ t ∈ r.rest, t.isDynamic session r.context.scopes = false)
    (other : Nested) (c : Context) (hScopes : c.scopes = r.context.scopes) :
    walk other serve (r.withContext c) session =
      ((walk nested serve r session).1, (walk nested serve r session).2.1.withContext c,
        session) := by
  induction r using walk_induction with
  | nil r hRest =>
      rw [walk_nil nested serve session hRest,
        walk_nil other serve (r := r.withContext c) session hRest, finish_withContext]
  | misplaced r token rest expectation hRest misplaced =>
      rw [walk_misplaced nested serve session hRest misplaced,
        walk_misplaced other serve (r := r.withContext c) session hRest misplaced]
  | placed r token rest hRest placed ih =>
      obtain ⟨flat, same⟩ := step_static (r := r.moveTo rest) serve
        (hStatic token (hRest ▸ List.mem_cons_self)) c hScopes
      rcases hStep : (r.moveTo rest).step session serve token with ⟨action, after⟩
      rw [hStep] at flat same
      have hOther := flat.perform nested other r.context c session
      have hOwn := flat.perform nested nested r.context r.context session
      cases hResult : (action.perform nested r.context session).1 with
      | error e =>
          rw [hResult] at hOther hOwn
          rw [walk_of_error hRest placed hStep hOwn,
            walk_of_error (r := r.withContext c) hRest placed same hOther]
      | ok text =>
          rw [hResult] at hOther hOwn
          cases hClose : action.isClose with
          | true =>
              rw [walk_of_close hRest placed hStep hOwn hClose,
                walk_of_close (r := r.withContext c) hRest placed same hOther hClose]
          | false =>
              have hContext := step_keeps_context hStep
              have hAfter : ∀ t ∈ after.rest, t.isDynamic session after.context.scopes = false := by
                intro t ht
                rw [hContext]
                exact hStatic t (hRest ▸ List.mem_cons_of_mem _ ((step_suffix hStep).subset ht))
              have hLater := ih after (step_length_lt hRest hStep) hAfter
                (by rw [hContext]; exact hScopes)
              rw [walk_of_ok hRest placed hStep hOwn hClose,
                walk_of_ok (r := r.withContext c) hRest placed same hOther hClose, hLater]

end Rendering

/-- A block without dynamic tokens gives the same text under the parameters of every
item. -/
theorem renderBody_static {tokens : List Token} {context : Context} {session : Session}
    (hStatic : ∀ t ∈ tokens, t.isDynamic session context.scopes = false) (nested : Nested)
    (bag : Bag) :
    renderBody nested tokens { context with bag } session =
      ((renderBody nested tokens context session).1, session) := by
  have hWalk := Rendering.walk_static nested false
    (r := (Rendering.start tokens context).enter) hStatic nested { context with bag } rfl
  unfold renderBody Rendering.body
  rw [← Rendering.start_withContext tokens context { context with bag } rfl,
    Rendering.withContext_enter, hWalk]

section

variable {α β : Type} {m : StateM Session (Except RenderError α)}
  {next : α → ExceptT RenderError (StateM Session) β} {session after : Session}

theorem run_bind_of_error {e : RenderError} (h : m.run session = (.error e, after)) :
    (ExceptT.mk m >>= next).run.run session = (.error e, after) := by
  simp only [ExceptT.run_bind, ExceptT.run_mk, StateT.run_bind, h]
  rfl

theorem run_bind_of_ok {a : α} (h : m.run session = (.ok a, after)) :
    (ExceptT.mk m >>= next).run.run session = (next a).run.run after := by
  simp only [ExceptT.run_bind, ExceptT.run_mk, StateT.run_bind, h]
  rfl

end

/-- Rendering a block anew for each item is taking the turns of the loop. -/
theorem renderItems_eq_mapM (nested : Nested) (tokens : List Token) (context : Context)
    (binding : String) (index : Nat) (items : List Data) (session : Session) :
    renderItems nested tokens context binding index items session =
      (List.flatten <$> (items.zipIdx index).mapM
        (loopTurn nested tokens context binding)).run.run session := by
  induction items generalizing index session with
  | nil => rfl
  | cons item rest ih =>
      unfold renderItems
      simp only [List.zipIdx_cons, List.mapM_cons, loopTurn, Bag.forItem, bind_assoc, map_bind]
      generalize (context.bag.insert binding item).insert loopIndexName (.ofInt index) = bag
      cases hBody : renderBody nested tokens { context with bag } session with
      | mk result after =>
          cases result with
          | error e => exact (run_bind_of_error hBody).symm
          | ok fragment =>
              rw [run_bind_of_ok (m := renderBody nested tokens { context with bag }) hBody]
              simp only [ih, pure_bind, map_pure, List.flatten_cons, ExceptT.run_map,
                StateT.run_map, bind_pure_comp]
              cases (List.mapM (loopTurn nested tokens context binding)
                (rest.zipIdx (index + 1))).run.run after with
              | mk turns last => cases turns <;> rfl

theorem renderItems_static_error {nested : Nested} {tokens : List Token} {context : Context}
    {session : Session} (hStatic : ∀ t ∈ tokens, t.isDynamic session context.scopes = false)
    {e : RenderError} (hBody : (renderBody nested tokens context session).1 = .error e)
    (binding : String) (index : Nat) {items : List Data} (hItems : items ≠ []) :
    renderItems nested tokens context binding index items session = (.error e, session) := by
  cases items with
  | nil => exact absurd rfl hItems
  | cons item rest =>
      unfold renderItems
      dsimp only
      rw [renderBody_static hStatic nested (context.bag.forItem binding item index), hBody]

theorem renderItems_static_ok {nested : Nested} {tokens : List Token} {context : Context}
    {session : Session} (hStatic : ∀ t ∈ tokens, t.isDynamic session context.scopes = false)
    {fragment : List Char} (hBody : (renderBody nested tokens context session).1 = .ok fragment)
    (binding : String) (index : Nat) (items : List Data) :
    renderItems nested tokens context binding index items session =
      (.ok ((items.zipIdx index).flatMap fun (item, index) =>
        substitute (context.bag.forItem binding item index) fragment), session) := by
  induction items generalizing index with
  | nil => rfl
  | cons item rest ih =>
      unfold renderItems
      dsimp only
      rw [renderBody_static hStatic nested (context.bag.forItem binding item index), hBody]
      simp only [ih]
      rfl

/-- The way through a loop that renders its block only once gives what rendering it
anew for each item gives, provided that there is an item. -/
theorem fillItems_eq_renderItems (nested : Nested) {tokens : List Token} (context : Context)
    {session : Session} (hStatic : ∀ t ∈ tokens, t.isDynamic session context.scopes = false)
    (binding : String) {items : List Data} (hItems : items ≠ []) :
    ((renderBody nested tokens context session).1.map fun fragment =>
        fillItems fragment context.bag binding items,
      (renderBody nested tokens context session).2) =
      renderItems nested tokens context binding 0 items session := by
  have hSession : (renderBody nested tokens context session).2 = session :=
    congrArg Prod.snd (renderBody_static hStatic nested context.bag)
  cases hBody : (renderBody nested tokens context session).1 with
  | error e =>
      rw [renderItems_static_error hStatic hBody binding 0 hItems, hSession]
      rfl
  | ok fragment =>
      rw [renderItems_static_ok hStatic hBody binding 0 items, hSession]
      rfl

/-- A loop over at least one item is its unrolling: the same text or the same error,
and the same session afterwards, whichever way the renderer takes. -/
theorem renderLoop_eq_unrolledLoop (nested : Nested) (context : Context) (head : LoopHead)
    (source : String) (session : Session) (hItems : head.items ≠ []) :
    renderLoop nested context head source session =
      (unrolledLoop nested context head source).run.run session := by
  unfold renderLoop unrolledLoop
  cases hTokens : Token.scanMarkup source context.file with
  | error e => rfl
  | ok tokens =>
      let opened := session.blockScopes context.scopes
      have hUnrolled := renderItems_eq_mapM nested tokens { context with scopes := opened.2 }
        head.binding 0 head.items opened.1
      rw [← bind_pure_comp] at hUnrolled
      dsimp only
      split
      · -- the block may mean something else for each item
        rw [hUnrolled]
        rfl
      · -- the block is rendered once, under the parameters of the loop itself
        next hDynamic =>
        have hStatic : ∀ t ∈ tokens, t.isDynamic opened.1 opened.2 = false := by
          intro t ht
          cases hToken : t.isDynamic opened.1 opened.2 with
          | false => rfl
          | true => exact absurd (List.any_eq_true.mpr ⟨t, ht, hToken⟩) hDynamic
        have hFill := fillItems_eq_renderItems nested { context with scopes := opened.2 } hStatic
          head.binding hItems
        rw [hUnrolled] at hFill
        exact hFill

/-- Two turns over a block with a raw element, a void one and an open parenthesis,
which is rendered only once. -/
theorem renderLoop_eq_unrolledLoop_of_two_items :
    [Data.string "a", .object [("b", .null)]] ≠ [] ∧
    renderLoop ((Session.start 64).nested fun _ path => .error (.notFound path))
      ⟨[("_", .string "raw")], ⟨0, 0, 0, 0⟩, "page.html"⟩
      ⟨[.string "a", .object [("b", .null)]], "item"⟩
      "<br>(@(item) @(_i)<pre>@(item.b)</pre>" (Session.start 64).pageScopes.1 =
    (unrolledLoop ((Session.start 64).nested fun _ path => .error (.notFound path))
      ⟨[("_", .string "raw")], ⟨0, 0, 0, 0⟩, "page.html"⟩
      ⟨[.string "a", .object [("b", .null)]], "item"⟩
      "<br>(@(item) @(_i)<pre>@(item.b)</pre>").run.run (Session.start 64).pageScopes.1 := by
  have hItems : [Data.string "a", .object [("b", .null)]] ≠ [] := List.cons_ne_nil _ _
  exact ⟨hItems, renderLoop_eq_unrolledLoop _ _ ⟨_, "item"⟩ _ _ hItems⟩

end HtmlTemplate
