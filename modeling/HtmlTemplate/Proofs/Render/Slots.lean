import HtmlTemplate.Proofs.Raw.Bags
import HtmlTemplate.Proofs.Render.Walk
import HtmlTemplate.Proofs.Result
import HtmlTemplate.Proofs.Source.Brackets
import HtmlTemplate.Render.Page

/-! What the component of a paired tag sees as its slot. The content of the element, up to
the closing tag that matches, is rendered with what its user is rendered with, and the
text that comes out is bound to `slot`, unless the user has been given a `slot` itself. -/
namespace HtmlTemplate

theorem Token.closes_of_opens {t : Token} {name : String} (h : t.opens name = true) :
    t.closes name = false := by
  simp only [Token.opens, Bool.and_eq_true, decide_eq_true_eq] at h
  simp [Token.closes, h.1]

section

variable {name : String} {depth : Nat} {t close : Token} {tokens content after : List Token}

theorem map_cons_eq_some_iff {found : Option (List Token × List Token)} :
    (found.map fun (content, after) => (t :: content, after)) = some (t :: content, after) ↔
      found = some (content, after) := by
  simp

theorem splitContent?_append_iff (hClose : close.closes name = true) :
    splitContent? name depth (content ++ close :: after) = some (content, after) ↔
      Balances (·.opens name) (·.closes name) depth content := by
  -- a first tag of the name shifts the depth by one on both sides
  induction content generalizing depth with
  | nil =>
      have hOpens : ¬ close.opens name = true := fun h =>
        Bool.false_ne_true ((Token.closes_of_opens h).symm.trans hClose)
      rw [List.nil_append, splitContent?.eq_def, balances_nil_iff]
      dsimp only
      rw [if_neg hOpens, if_pos hClose]
      cases depth <;> simp
  | cons t content ih =>
      rw [List.cons_append, splitContent?.eq_def]
      dsimp only
      by_cases hOpens : t.opens name = true
      · rw [if_pos hOpens, map_cons_eq_some_iff, ih,
          balances_of_opens (a := t) hOpens (Token.closes_of_opens hOpens)]
      · have hNotOpens := Bool.eq_false_iff.mpr hOpens
        rw [if_neg hOpens]
        by_cases hCloses : t.closes name = true
        · rw [if_pos hCloses]
          cases depth with
          | zero =>
              simpa using not_balances_of_closes (a := t) hNotOpens hCloses
          | succ depth =>
              dsimp only
              rw [map_cons_eq_some_iff, ih, balances_of_closes (a := t) hNotOpens hCloses]
        · rw [if_neg hCloses, map_cons_eq_some_iff, ih,
            balances_of_neither (a := t) hNotOpens (Bool.eq_false_iff.mpr hCloses)]

/-- What is split off as the content of an element is balanced in the tags of its name,
and ends in front of a tag that closes the element. -/
theorem splitContent?_eq_some_iff : splitContent? name depth tokens = some (content, after) ↔
    ∃ close : Token, tokens = content ++ close :: after ∧ close.closes name = true ∧
      Balances (·.opens name) (·.closes name) depth content := by
  refine ⟨fun h => ?_, ?_⟩
  · obtain ⟨close, hClose, rfl⟩ := splitContent?_eq_some h
    exact ⟨close, rfl, hClose, (splitContent?_append_iff hClose).mp h⟩
  · rintro ⟨close, rfl, hClose, hBalanced⟩
    exact (splitContent?_append_iff hClose).mpr hBalanced

end

/-- An element that is written with two tags: the tag that opens it, the name and the
attributes in that tag, what stands between the tags, and the tag that closes it. -/
structure Element where
  tag : Token
  name : String
  attributes : List Char
  content : List Token
  close : Token

namespace Element

def tokens (e : Element) : List Token :=
  e.tag :: (e.content ++ [e.close])

/-- Whether an element is one of a component, and its tags match. -/
structure Invokes (e : Element) (session : Session) (scopes : Scopes) (k : Component) :
    Prop where
  kind : e.tag.kind = .openingTag
  parts : tagParts? e.tag.value.toList = some (e.name.toList, e.attributes)
  notRaw : isRawElement e.name = false
  found : session.component? scopes e.name = some k
  content : Balances (·.opens e.name) (·.closes e.name) 0 e.content
  close : e.close.closes e.name = true

/-- What the component of an element is rendered with, if the content of the element has
been rendered to a text. -/
def parameters (e : Element) (user : Bag) (inner : List Char) : Bag :=
  wrapBag (attributeBag user e.attributes) user (substitute user inner)

/-- The parameters of the user win over attributes and content. -/
theorem get?_slot_parameters (e : Element) {user : Bag} (hSorted : user.Sorted)
    (inner : List Char) : (e.parameters user inner).get? "slot" =
      some ((user.get? "slot").getD (.ofChars (substitute user inner))) := by
  unfold parameters wrapBag
  rw [Bag.get?_extend _ hSorted, Bag.get?_insert, if_pos rfl]
  cases user.get? "slot" <;> rfl

theorem sorted_parameters (e : Element) (user : Bag) (inner : List Char) :
    (e.parameters user inner).Sorted :=
  .extend (.insert (Bag.sorted_ofList _) _ _) user

/-- What the last of some components is rendered with, if each element, given with what
its content has been rendered to, stands in the template of the component before. -/
def handedDown (user : Bag) (chain : List (Element × List Char)) : Bag :=
  chain.foldl (fun bag (e, inner) => e.parameters bag inner) user

/-- A slot is handed down to all components that are used below, whatever is in their own
elements. -/
theorem get?_slot_handedDown {user : Bag} (hSorted : user.Sorted) {slot : Data}
    (hSlot : user.get? "slot" = some slot) (chain : List (Element × List Char)) :
    (handedDown user chain).get? "slot" = some slot := by
  unfold handedDown
  induction chain generalizing user with
  | nil => exact hSlot
  | cons first rest ih =>
      obtain ⟨e, inner⟩ := first
      refine ih (e.sorted_parameters user inner) ?_
      rw [e.get?_slot_parameters hSorted, hSlot]
      rfl

end Element

section

variable {e : Element} {session : Session} {r : Rendering} {k : Component} {rest : List Token}

/-- At the tag that opens an element the component is found, and the content is set
aside. -/
theorem Element.Invokes.step (h : e.Invokes session r.context.scopes k) (serve : Bool)
    (rest : List Token) :
    (r.moveTo (e.content ++ e.close :: rest)).step session serve e.tag =
      (.wrap k (attributeBag r.context.bag e.attributes) e.content e.tag, r.moveTo rest) := by
  have hSplit : splitContent? e.name 0 (e.content ++ e.close :: rest) = some (e.content, rest) :=
    splitContent?_eq_some_iff.mpr ⟨e.close, rfl, h.close, h.content⟩
  unfold Rendering.step
  rw [h.kind]
  dsimp only
  unfold Rendering.openElement
  rw [h.parts]
  dsimp only [Rendering.moveTo]
  rw [String.ofList_toList, h.notRaw, h.found]
  simp only [Bool.false_eq_true, ↓reduceIte, hSplit]

/-- With a level left, the content of an element is rendered with what its user is rendered
with, and the component after it with what came of that. -/
theorem Element.perform_wrap (e : Element) (resolve : Resolver) (levels : Nat) (k : Component)
    (context : Context) (session : Session) :
    (Action.wrap k (attributeBag context.bag e.attributes) e.content e.tag).perform
        (nestedWithin resolve (levels + 1)) context session =
      match renderBody (nestedWithin resolve levels) e.content context session.enter with
      | (.error x, later) => (.error x, later.leave)
      | (.ok inner, later) =>
        let rendered := renderComponent (nestedWithin resolve levels) resolve k
          (e.parameters context.bag inner) later.leave.enter
        (rendered.1, rendered.2.leave) := by
  unfold Action.perform
  dsimp only [nestedWithin, Task.render]
  rcases renderBody (nestedWithin resolve levels) e.content context session.enter with
    ⟨x | inner, later⟩ <;> rfl

/-- Where an element of a component begins, its content is rendered first, and its
references are replaced by parameters of the user. The component is then rendered with
what came of that as `slot`, unless the user has a `slot` among its own parameters: then
the component has the same. -/
theorem slot_of_element (resolve : Resolver) (levels : Nat) (serve : Bool)
    (h : e.Invokes session r.context.scopes k) (hSorted : r.context.bag.Sorted)
    (hRest : r.rest = e.tokens ++ rest) :
    match renderBody (nestedWithin resolve levels) e.content r.context session.enter with
    | (.error x, _) =>
      (Rendering.walk (nestedWithin resolve (levels + 1)) serve r session).1 = .error x
    | (.ok inner, later) =>
      (e.parameters r.context.bag inner).get? "slot" =
        some ((r.context.bag.get? "slot").getD (.ofChars (substitute r.context.bag inner))) ∧
      (e.parameters r.context.bag inner).Sorted ∧
      (Rendering.walk (nestedWithin resolve (levels + 1)) serve r session).1 =
        match renderComponent (nestedWithin resolve levels) resolve k
          (e.parameters r.context.bag inner) later.leave.enter with
        | (.error x, _) => .error x
        | (.ok text, last) => (Rendering.walk (nestedWithin resolve (levels + 1)) serve
            (r.moveTo rest) last.leave).1.map (text ++ ·) := by
  have hTokens : r.rest = e.tag :: (e.content ++ e.close :: rest) := by
    simp [hRest, Element.tokens]
  have hPlaced : e.tag.kind.misplaced? = none := by rw [h.kind]; rfl
  have hStep := h.step serve rest
  have hPerformed := e.perform_wrap resolve levels k r.context session
  split
  · next x later hContent =>
    rw [hContent] at hPerformed
    rw [Rendering.walk_of_error hTokens hPlaced hStep hPerformed]
  · next inner later hContent =>
    refine ⟨e.get?_slot_parameters hSorted inner, e.sorted_parameters _ _, ?_⟩
    rw [hContent] at hPerformed
    dsimp only at hPerformed
    split
    · next x last hComponent =>
      rw [hComponent] at hPerformed
      rw [Rendering.walk_of_error hTokens hPlaced hStep hPerformed]
    · next text last hComponent =>
      rw [hComponent] at hPerformed
      rw [Rendering.walk_of_ok hTokens hPlaced hStep hPerformed rfl]

end

/-- `Outer` uses `Inner` in its template, and `Inner` puts its slot in brackets. -/
def shelf : Resolver := fun _ path =>
  if path = "outer" then .ok ⟨path, "as Inner import 'inner' serve (<Inner>y</Inner>)"⟩
  else .ok ⟨path, "serve ([@(slot)])"⟩

/-- A page without parameters. -/
def shelfPage : Context :=
  ⟨[], ⟨0, 0, 0, 0⟩, "page"⟩

/-- That page when it has imported `Outer`. -/
def shelfSession : Session :=
  ((Setup.importComponent "Outer" "outer" ⟨"page", 1, 1⟩).run shelf shelfPage
    (Session.start 64).pageScopes.1).2

/-- A token of a kind and a text, wherever it stands. -/
def piece (kind : TokenKind) (text : String) : Token :=
  ⟨kind, text, ⟨0, 0, 1, 1⟩, "page"⟩

/-- `<Outer>a<Outer>b</Outer></Outer>` -/
def doubled : Element where
  tag := piece .openingTag "<Outer>"
  name := "Outer"
  attributes := []
  content := [piece .text "a", piece .openingTag "<Outer>", piece .text "b",
    piece .closingTag "</Outer>"]
  close := piece .closingTag "</Outer>"

/-- On a page, an element within an element of the same component: what has become of the
inner one is part of the slot of the outer one. -/
theorem slot_of_element_in_itself : ∃ k : Component,
    doubled.Invokes shelfSession shelfPage.scopes k ∧ shelfPage.bag.Sorted ∧
    (Rendering.start doubled.tokens shelfPage).rest = doubled.tokens ++ [] ∧
    (renderBody (nestedWithin shelf 63) doubled.content shelfPage shelfSession.enter).1 =
      .ok "a[b]".toList ∧
    (doubled.parameters shelfPage.bag "a[b]".toList).get? "slot" =
      some (.ofChars (substitute shelfPage.bag "a[b]".toList)) := by
  obtain ⟨k, hFound⟩ : ∃ k, shelfSession.component? shelfPage.scopes "Outer" = some k :=
    Option.isSome_iff_exists.mp (by decide +kernel)
  have hInvokes : doubled.Invokes shelfSession shelfPage.scopes k :=
    ⟨rfl, by decide +kernel, by decide +kernel, hFound, by decide +kernel, by decide +kernel⟩
  have hSorted : shelfPage.bag.Sorted := .nil
  have hContent : (renderBody (nestedWithin shelf 63) doubled.content shelfPage
      shelfSession.enter).1 = .ok "a[b]".toList := toOption_eq_some.mp (by decide +kernel)
  have hRest : (Rendering.start doubled.tokens shelfPage).rest = doubled.tokens ++ [] := rfl
  refine ⟨k, hInvokes, hSorted, hRest, hContent, ?_⟩
  have hSlot := slot_of_element (r := Rendering.start doubled.tokens shelfPage) shelf 63 false
    hInvokes hSorted hRest
  dsimp only [Rendering.start] at hSlot
  revert hSlot hContent
  rcases renderBody (nestedWithin shelf 63) doubled.content shelfPage shelfSession.enter with
    ⟨_, later⟩
  rintro rfl hSlot
  exact hSlot.1

/-- The template of `Outer` in the course of being rendered with the content `x`. -/
def outerContext : Context :=
  ⟨[("slot", .string "x")], ⟨1, 1, 1, 1⟩, "outer"⟩

/-- The session behind the first statement of that template. -/
def outerSession : Session :=
  ((Setup.importComponent "Inner" "inner" ⟨"outer", 1, 1⟩).run shelf outerContext
    shelfSession.enter).2

/-- `<Inner>y</Inner>`, as it stands there. -/
def hidden : Element where
  tag := piece .openingTag "<Inner>"
  name := "Inner"
  attributes := []
  content := [piece .text "y"]
  close := piece .closingTag "</Inner>"

/-- In the template of a component that has content itself, the content of an element is
rendered, but its component sees something else: the page shows `[x]`. -/
theorem content_hidden_by_slot_of_user : ∃ k : Component,
    hidden.Invokes outerSession outerContext.scopes k ∧ outerContext.bag.Sorted ∧
    (renderBody (nestedWithin shelf 62) hidden.content outerContext outerSession.enter).1 =
      .ok ['y'] ∧
    (hidden.parameters outerContext.bag ['y']).get? "slot" ≠
      some (.ofChars (substitute outerContext.bag ['y'])) ∧
    ({} : Options).render shelf "as Outer import 'outer' serve (<Outer>x</Outer>)" [] "page" =
      .ok "[x]" := by
  obtain ⟨k, hFound⟩ : ∃ k, outerSession.component? outerContext.scopes "Inner" = some k :=
    Option.isSome_iff_exists.mp (by decide +kernel)
  have hSorted : outerContext.bag.Sorted := List.pairwise_singleton _ _
  have hText : substitute outerContext.bag ['y'] = ['y'] := by decide +kernel
  refine ⟨k, ⟨rfl, by decide +kernel, by decide +kernel, hFound, by decide +kernel,
    by decide +kernel⟩, hSorted, toOption_eq_some.mp (by decide +kernel), ?_,
    toOption_eq_some.mp (by decide +kernel)⟩
  rw [hidden.get?_slot_parameters hSorted, hText]
  intro hSame
  have hOther : "x" = String.ofList ['y'] := Data.string.inj (Option.some.inj hSame)
  exact absurd hOther (by decide)

end HtmlTemplate
