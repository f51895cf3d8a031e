import HtmlTemplate.Proofs.Markup.Amid
import HtmlTemplate.Proofs.Source.Tags

/-! Fragments of markup: texts that end with a tag and leave nothing open. A reference ends
in the fragment or breaks off at the end of a line of it, and a raw element is closed in it, so
that no search of substitution goes beyond its end: fragments are substituted one by one. -/
namespace HtmlTemplate

/-- What a text goes on with behind its first piece: behind a reference within one line, behind
a raw element, or else behind one character. -/
def behindPiece (c : Char) (rest : List Char) : List Char :=
  if c = '@' && rest.head? = some '(' then
    match referenceInner? (rest.drop 1) with
    | some (_, after) => after
    | none => rest
  else if c = '<' then
    match rawOpened? rest with
    | some name => rest.drop (rawLength name rest)
    | none => rest
  else rest

theorem behindPiece_suffix (c : Char) (rest : List Char) : behindPiece c rest <:+ rest := by
  unfold behindPiece
  split
  · split
    · next inner after hInner =>
      obtain ⟨hText, -, -⟩ := referenceInner?_eq_some_iff.mp hInner
      refine List.IsSuffix.trans ⟨inner ++ [')'], ?_⟩ (List.drop_suffix 1 rest)
      rw [hText, List.append_assoc]
      rfl
    · exact List.suffix_rfl
  · split
    · split
      · exact List.drop_suffix _ _
      · exact List.suffix_rfl
    · exact List.suffix_rfl

/-- The places of a text outside of its references and raw elements, each given by the text
from there on. -/
def places : List Char → List (List Char)
  | [] => []
  | c :: rest => (c :: rest) :: places (behindPiece c rest)
termination_by text => text.length
decreasing_by
  have := (behindPiece_suffix c rest).length_le
  simp only [List.length_cons]
  omega

/-- A reference that a text begins with ends in it, or breaks off at the end of a line. -/
def ReferenceEnds (text : List Char) : Prop :=
  ['@', '('] <+: text → ')' ∈ text ∨ '\n' ∈ text

/-- A raw element that a text begins with is closed in it. Its name opens it in front of a
bracket, a slash or white space. -/
def ElementCloses (text : List Char) : Prop :=
  ['<'] <+: text → ∀ name ∈ rawOpened? text.tail,
    '<' :: '/' :: name.toList <:+: text.tail.map Char.toLower

instance (text : List Char) : Decidable (ReferenceEnds text) :=
  inferInstanceAs (Decidable (_ → _))

instance (text : List Char) : Decidable (ElementCloses text) :=
  inferInstanceAs (Decidable (_ → _))

/-! Searches that stay inside of a text. -/

/-- If the content of a raw element is all of the text, no tag in it closes the element. -/
theorem not_infix_of_rawContent {name : String} {text : List Char}
    (h : rawContent name text = text) : ¬ '<' :: '/' :: name.toList <:+: text.map Char.toLower := by
  induction text with
  | nil =>
      intro hInfix
      cases List.infix_nil.mp hInfix
  | cons c rest ih =>
      unfold rawContent at h ih
      rw [Source.beforeClosing] at h
      split at h
      · cases h
      · next hHere =>
        intro hInfix
        rcases List.infix_cons_iff.mp hInfix with hStart | hLater
        · exact hHere (Source.dropPrefixIgnoringCase?_isSome.mpr hStart)
        · exact ih (List.cons.inj h).2 hLater

/-- A raw element that a tag closes ends in a text that ends with a tag. -/
theorem rawLength_le_of_closed {name : String} {rest : List Char} (hEnd : ['>'] <:+ '<' :: rest)
    (hClosed : '<' :: '/' :: name.toList <:+: rest.map Char.toLower) :
    rawLength name rest ≤ rest.length := by
  obtain ⟨tail, hTail⟩ := rawContent_starts name rest
  have hSome : tail ≠ [] := by
    rintro rfl
    rw [List.append_nil] at hTail
    exact not_infix_of_rawContent hTail hClosed
  have hSuffix : tail <:+ '<' :: rest := List.IsSuffix.trans ⟨_, hTail⟩ (List.suffix_cons _ _)
  have hMem : '>' ∈ tail :=
    ((eq_nil_or_ends hEnd hSuffix).resolve_left hSome).mem List.mem_cons_self
  have hTag : (tail.takeWhile (· ≠ '>')).length < tail.length := by
    refine Nat.lt_of_le_of_ne (List.takeWhile_prefix _).length_le fun hAll => ?_
    rw [← (List.takeWhile_prefix _).eq_of_length hAll] at hMem
    simpa using List.mem_takeWhile_imp hMem
  have hDrop : rest.drop (rawContent name rest).length = tail :=
    (congrArg (List.drop (rawContent name rest).length) hTail).symm.trans List.drop_left
  have hLength := congrArg List.length hTail
  rw [List.length_append] at hLength
  unfold rawLength
  rw [hDrop]
  omega

/-- A reference that ends, and does so in its line. -/
theorem referenceInner?_ne_none {behind : List Char} (hClosing : ')' ∈ behind)
    (hLine : '\n' ∉ behind) : referenceInner? behind ≠ none := by
  obtain ⟨inner, after, rfl, hFirst⟩ := List.eq_append_cons_of_mem hClosing
  have hInner : '\n' ∉ inner := fun hMem => hLine (List.mem_append_left _ hMem)
  rw [referenceInner?_eq_some_iff.mpr ⟨rfl, hFirst, hInner⟩]
  exact Option.some_ne_none _

/-- Behind a piece that ends in the text, substitution is where the rest of the text leaves
it. -/
theorem amid_cons {c : Char} {rest : List Char} (hEnd : ['>'] <:+ c :: rest)
    (hReference : ReferenceEnds (c :: rest)) (hElement : ElementCloses (c :: rest)) :
    amid (c :: rest) = amid (behindPiece c rest) := by
  rw [amid.eq_def]
  unfold behindPiece
  dsimp only
  split
  · next hAt =>
    obtain ⟨behind, rfl, rfl⟩ := exists_of_atReference hAt
    split
    · next hInner => rw [hInner]
    · next hInner =>
      have hEnds : ')' ∈ behind ∨ '\n' ∈ behind := by
        simpa using hReference (List.prefix_append ['@', '('] behind)
      have hLine : '\n' ∈ behind := by
        by_contra hNone
        exact referenceInner?_ne_none (hEnds.resolve_right hNone) hNone hInner
      rw [hInner, if_pos (List.mem_cons_of_mem _ hLine)]
  · split
    · next hTag =>
      subst hTag
      cases hName : rawOpened? rest with
      | none => rfl
      | some name =>
          have hClosed := hElement (List.prefix_append ['<'] rest) name hName
          exact if_pos (rawLength_le_of_closed hEnd hClosed)
    · rfl

/-- Where all that begins in a text ends in it, substitution is in the midst of nothing. -/
theorem amid_eq_nothing {text : List Char} (hEnd : text = [] ∨ ['>'] <:+ text)
    (hReferences : ∀ place ∈ places text, ReferenceEnds place)
    (hElements : ∀ place ∈ places text, ElementCloses place) : amid text = .nothing := by
  fun_induction places text with
  | case1 => rw [amid.eq_def]
  | case2 c rest ih =>
      obtain ⟨hReference, hReferences⟩ := List.forall_mem_cons.mp hReferences
      obtain ⟨hElement, hElements⟩ := List.forall_mem_cons.mp hElements
      have hTag : ['>'] <:+ c :: rest := hEnd.resolve_left (List.cons_ne_nil c rest)
      have hSuffix := (behindPiece_suffix c rest).trans (List.suffix_cons c rest)
      rw [amid_cons hTag hReference hElement]
      exact ih (eq_nil_or_ends hTag hSuffix) hReferences hElements

/-- Fragments are substituted one by one: what stands behind a text that ends with a tag, and in
which every reference ends or breaks off and every raw element is closed, does not matter to it,
nor it to that. What stands inside of references and raw elements need not be complete. -/
theorem substitute_fragment (bag : Bag) {text : List Char} (hEnd : text = [] ∨ ['>'] <:+ text)
    (hReferences : ∀ place ∈ places text, ReferenceEnds place)
    (hElements : ∀ place ∈ places text, ElementCloses place) (more : List Char) :
    substitute bag (text ++ more) = substitute bag text ++ substitute bag more := by
  have hNothing := amid_eq_nothing hEnd hReferences hElements
  refine substitute_append (hEnd.imp_right .inl) ?_
  rw [hNothing]
  rfl

/-- A fragment with an open tag and an open reference inside of a raw element, and with a
reference that breaks off. -/
def scriptFragment : List Char :=
  "<script><style>@(</script>@(a)@(\n<p>".toList

theorem scriptFragment_substituted : (scriptFragment = [] ∨ ['>'] <:+ scriptFragment) ∧
    (∀ place ∈ places scriptFragment, ReferenceEnds place) ∧
    (∀ place ∈ places scriptFragment, ElementCloses place) ∧
    substitute [("a", .string "x")] (scriptFragment ++ "</style>@(a)".toList) =
      substitute [("a", .string "x")] scriptFragment ++
        substitute [("a", .string "x")] "</style>@(a)".toList := by
  have hPlaces : places scriptFragment = [scriptFragment, "@(a)@(\n<p>".toList,
      "@(\n<p>".toList, "(\n<p>".toList, "\n<p>".toList, "<p>".toList, "p>".toList,
      ">".toList] := by
    decide +kernel
  have hEnd : scriptFragment = [] ∨ ['>'] <:+ scriptFragment := by decide +kernel
  have hReferences : ∀ place ∈ places scriptFragment, ReferenceEnds place := by
    rw [hPlaces]
    decide +kernel
  have hElements : ∀ place ∈ places scriptFragment, ElementCloses place := by
    rw [hPlaces]
    decide +kernel
  exact ⟨hEnd, hReferences, hElements, substitute_fragment _ hEnd hReferences hElements _⟩

end HtmlTemplate
