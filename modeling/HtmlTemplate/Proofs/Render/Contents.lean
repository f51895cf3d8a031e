import HtmlTemplate.Proofs.Render.Slots
import Mathlib.Data.List.Induction

/-! Where the content of an element ends. The renderer counts the tags of the element's name
that are still open; here the end is told without a depth, by the shortest part of the
tokens to come in which the name is closed once more than it is opened. -/
namespace HtmlTemplate

/-- One bracket more is closed in a sequence than is opened in it. -/
def ClosesOneMore {α : Type} (opens closes : α → Bool) (text : List α) : Prop :=
  text.countP closes = text.countP opens + 1

/-- The shortest of those fronts of a sequence that are of some kind. -/
structure ShortestFront {α : Type} (Kind : List α → Prop) (text front : List α) : Prop where
  isFront : front <+: text
  kind : Kind front
  shortest : ∀ other, other <+: text → Kind other → front.length ≤ other.length

section

variable {α : Type} {opens closes : α → Bool} {Kind : List α → Prop} {a : α}
  {text front content after : List α}

theorem exists_shortestFront (hFront : front <+: text) (hKind : Kind front) :
    ∃ first, ShortestFront Kind text first := by
  induction hLength : front.length using Nat.strongRecOn generalizing front with
  | ind n ih =>
      by_cases hShorter : ∃ other, other <+: text ∧ Kind other ∧ other.length < n
      · obtain ⟨other, hOther, hOtherKind, hLess⟩ := hShorter
        exact ih other.length hLess hOther hOtherKind rfl
      · refine ⟨front, hFront, hKind, fun other hOther hOtherKind => Nat.le_of_not_lt ?_⟩
        intro hLess
        exact hShorter ⟨other, hOther, hOtherKind, hLength ▸ hLess⟩

/-- Where no front closes one bracket more than it opens, none closes even more: a count
that changes by one at a time does not leap over a number. -/
theorem countP_le_of_not_closesOneMore
    (hNone : ∀ other, other <+: text → ¬ ClosesOneMore opens closes other)
    (hFront : front <+: text) : front.countP closes ≤ front.countP opens := by
  induction front using List.reverseRecOn with
  | nil => exact Nat.le_refl 0
  | append_singleton front a ih =>
      have hBefore := ih ((List.prefix_append front [a]).trans hFront)
      have hNot := hNone _ hFront
      have hStep : [a].countP closes ≤ 1 := List.countP_le_length
      unfold ClosesOneMore at hNot
      simp only [List.countP_append] at hNot ⊢
      omega

/-- The shortest front that closes one bracket more than it opens is a balanced one with
the bracket that closes too much. -/
theorem ShortestFront.balances
    (h : ShortestFront (ClosesOneMore opens closes) (content ++ a :: after) (content ++ [a])) :
    closes a = true ∧ Balances opens closes 0 content := by
  have hLe (front : List α) (hFront : front <+: content) :
      front.countP closes ≤ front.countP opens := by
    refine countP_le_of_not_closesOneMore (fun other hOther hMore => ?_) hFront
    have hShort := h.shortest other (hOther.trans (List.prefix_append content _)) hMore
    have hLength := hOther.length_le
    rw [List.length_append, List.length_singleton] at hShort
    omega
  have hAll := hLe content (List.prefix_refl content)
  have hTotal := h.kind
  unfold ClosesOneMore at hTotal
  simp only [List.countP_append, List.countP_singleton] at hTotal
  have hCloses : closes a = true := by
    refine Decidable.byContradiction fun hNot => ?_
    rw [if_neg hNot] at hTotal
    omega
  rw [if_pos hCloses] at hTotal
  exact ⟨hCloses, ⟨fun front hFront => hLe front hFront, by omega⟩⟩

theorem Balances.shortestFront (h : Balances opens closes 0 content) (hOpens : opens a = false)
    (hCloses : closes a = true) :
    ShortestFront (ClosesOneMore opens closes) (content ++ a :: after) (content ++ [a]) := by
  constructor
  · exact ⟨after, by simp⟩
  · have hTotal := h.total
    unfold ClosesOneMore
    simp only [List.countP_append, List.countP_singleton, hOpens, hCloses, ↓reduceIte,
      Bool.false_eq_true]
    omega
  · intro other hOther hMore
    refine Nat.le_of_not_lt fun hShorter => ?_
    rw [List.length_append, List.length_singleton] at hShorter
    have hInside : other <+: content :=
      List.prefix_of_prefix_length_le hOther (List.prefix_append content _) (by omega)
    have hLe := h.fronts other hInside
    unfold ClosesOneMore at hMore
    omega

end

/-- Whether one more tag closes an element of a name in some tokens than opens one. A tag
that closes itself does neither. -/
abbrev ClosesName (name : String) (tokens : List Token) : Prop :=
  ClosesOneMore (·.opens name) (·.closes name) tokens

/-- The tokens up to the tag that closes an element of a name: the content of the element,
and the tag. -/
structure UpToMatch (name : String) (tokens content : List Token) (close : Token)
    (after : List Token) : Prop where
  eq : tokens = content ++ close :: after
  shortest : ShortestFront (ClosesName name) tokens (content ++ [close])
  closes : close.closes name = true
  balanced : Balances (·.opens name) (·.closes name) 0 content

section

variable {name : String} {tokens content after : List Token}

theorem Token.opens_of_closes {t : Token} (h : t.closes name = true) : t.opens name = false := by
  refine Bool.eq_false_iff.mpr fun hOpens => ?_
  exact Bool.false_ne_true ((Token.closes_of_opens hOpens).symm.trans h)

theorem splitContent?_iff_upToMatch : splitContent? name 0 tokens = some (content, after) ↔
    ∃ close, UpToMatch name tokens content close after := by
  rw [splitContent?_eq_some_iff]
  constructor
  · rintro ⟨close, rfl, hCloses, hBalanced⟩
    exact ⟨close, rfl, hBalanced.shortestFront (close.opens_of_closes hCloses) hCloses, hCloses,
      hBalanced⟩
  · rintro ⟨close, h⟩
    exact ⟨close, h.eq, h.closes, h.balanced⟩

/-- One front that closes the name once more than it opens it is enough for the content to
end somewhere, -/
theorem exists_upToMatch {front : List Token} (hFront : front <+: tokens)
    (hMore : ClosesName name front) :
    ∃ content close after, UpToMatch name tokens content close after := by
  obtain ⟨first, hFirst⟩ : ∃ first, ShortestFront (ClosesName name) tokens first :=
    exists_shortestFront hFront hMore
  obtain rfl | ⟨content, close, rfl⟩ := List.eq_nil_or_concat first
  · cases hFirst.kind
  · obtain ⟨after, hTokens⟩ := hFirst.isFront
    rw [List.concat_eq_append] at hTokens hFirst
    rw [List.append_assoc, List.singleton_append] at hTokens
    subst hTokens
    obtain ⟨hCloses, hBalanced⟩ := hFirst.balances
    exact ⟨content, close, after, rfl, hFirst, hCloses, hBalanced⟩

/-- and there is one wherever it ends. -/
theorem exists_splitContent?_iff :
    (∃ content after, splitContent? name 0 tokens = some (content, after)) ↔
      ∃ front, front <+: tokens ∧ ClosesName name front := by
  constructor
  · rintro ⟨content, after, h⟩
    obtain ⟨close, hMatch⟩ := splitContent?_iff_upToMatch.mp h
    exact ⟨_, hMatch.shortest.isFront, hMatch.shortest.kind⟩
  · rintro ⟨front, hFront, hMore⟩
    obtain ⟨content, close, after, hMatch⟩ := exists_upToMatch hFront hMore
    exact ⟨content, after, splitContent?_iff_upToMatch.mpr ⟨close, hMatch⟩⟩

end

/-- Whether a tag, at the place of a rendering, is one of a component. -/
structure Rendering.AtComponent (r : Rendering) (session : Session) (tag : Token)
    (name : String) (attributes : List Char) (k : Component) : Prop where
  parts : tagParts? tag.value.toList = some (name.toList, attributes)
  notRaw : isRawElement name = false
  found : session.component? r.context.scopes name = some k

/-- At the tag of a component the content is split off, or the renderer fails where it
stands. -/
theorem Rendering.AtComponent.openElement_eq {r : Rendering} {session : Session} {tag : Token}
    {name : String} {attributes : List Char} {k : Component}
    (h : r.AtComponent session tag name attributes k) :
    r.openElement session tag =
      match splitContent? name 0 r.rest with
      | some (content, after) =>
        (.wrap k (attributeBag r.context.bag attributes) content tag, { r with rest := after })
      | none => (.fail (.template (.unclosedComponent name) tag.location), r) := by
  unfold Rendering.openElement
  rw [h.parts]
  dsimp only
  rw [String.ofList_toList, h.notRaw, h.found]
  rfl

/-- The content of an element ends where the name has first been closed once more than it
has been opened, if that happens at all. A component's tag takes that content away with
the tag that closes it; if nothing closes it, the renderer fails and takes nothing. -/
theorem content_ends_at_match (name : String) (tokens : List Token) :
    ((∃ content after, splitContent? name 0 tokens = some (content, after)) ↔
      ∃ front, front <+: tokens ∧ ClosesName name front) ∧
    (∀ content after, splitContent? name 0 tokens = some (content, after) ↔
      ∃ close, UpToMatch name tokens content close after) ∧
    ∀ (r : Rendering) (session : Session) (tag : Token) (attributes : List Char) (k : Component),
      r.rest = tokens → r.AtComponent session tag name attributes k →
      (∀ content close after, UpToMatch name tokens content close after →
        r.openElement session tag =
          (.wrap k (attributeBag r.context.bag attributes) content tag,
            { r with rest := after })) ∧
      ((¬∃ front, front <+: tokens ∧ ClosesName name front) →
        r.openElement session tag =
          (.fail (.template (.unclosedComponent name) tag.location), r)) := by
  refine ⟨exists_splitContent?_iff, fun content after => splitContent?_iff_upToMatch, ?_⟩
  rintro r session tag attributes k rfl hTag
  rw [hTag.openElement_eq]
  constructor
  · intro content close after hMatch
    rw [splitContent?_iff_upToMatch.mpr ⟨close, hMatch⟩]
  · intro hNone
    cases hSplit : splitContent? name 0 r.rest with
    | none => rfl
    | some found => exact absurd (exists_splitContent?_iff.mp ⟨found.1, found.2, hSplit⟩) hNone

/-- `a<Outer>b</Outer><Outer/></Outer>c</Outer>`, behind the tag of an `Outer`. -/
def crowded : List Token :=
  [piece .text "a", piece .openingTag "<Outer>", piece .text "b",
    piece .closingTag "</Outer>", piece .selfClosingTag "<Outer/>",
    piece .closingTag "</Outer>", piece .text "c", piece .closingTag "</Outer>"]

/-- The content goes on over the inner element and over the tag that closes itself, and ends
before the second of three closing tags. -/
theorem content_ends_at_match_of_crowded : ∃ k : Component,
    let r := { Rendering.start [] shelfPage with rest := crowded }
    r.AtComponent shelfSession doubled.tag "Outer" [] k ∧
    r.openElement shelfSession doubled.tag =
      (.wrap k (attributeBag shelfPage.bag []) (crowded.take 5) doubled.tag,
        { r with rest := crowded.drop 6 }) := by
  obtain ⟨k, hFound⟩ : ∃ k, shelfSession.component? shelfPage.scopes "Outer" = some k :=
    Option.isSome_iff_exists.mp (by decide +kernel)
  have hTag : Rendering.AtComponent { Rendering.start [] shelfPage with rest := crowded }
      shelfSession doubled.tag "Outer" [] k :=
    ⟨by decide +kernel, by decide +kernel, hFound⟩
  obtain ⟨-, hEnds, hOpens⟩ := content_ends_at_match "Outer" crowded
  obtain ⟨close, hMatch⟩ := (hEnds (crowded.take 5) (crowded.drop 6)).mp (by decide +kernel)
  exact ⟨k, hTag, (hOpens _ _ _ _ _ rfl hTag).1 _ _ _ hMatch⟩

end HtmlTemplate
