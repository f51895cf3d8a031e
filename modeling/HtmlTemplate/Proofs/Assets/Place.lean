import HtmlTemplate.Markup.Asset

/-! Where a page links its assets: behind the first title that ends after the beginning of
the first head tag, or right behind that tag. The places are said here without a search,
by what stands before and behind them. -/
namespace HtmlTemplate

/-- A text has a part of some kind. -/
def HasPart (Kind : List Char → Prop) (text : List Char) : Prop :=
  ∃ before part after, text = before ++ part ++ after ∧ Kind part

/-- The first part of some kind in a text, and what stands before and behind it. -/
structure FirstPart (Kind : List Char → Prop) (text before part after : List Char) : Prop where
  eq : text = before ++ part ++ after
  kind : Kind part
  first : ∀ b p a, text = b ++ p ++ a → Kind p → before.length ≤ b.length

/-- The opening tag of a head: its name in any case, then nothing or a blank and more up to
the bracket. -/
def IsHeadTag (tag : List Char) : Prop :=
  ∃ name attributes, tag = name ++ attributes ++ ['>'] ∧
    name.map Char.toLower = "<head".toList ∧
    (∀ c ∈ attributes.head?, Text.isBlank c = true) ∧ '>' ∉ attributes

/-- The end of a title. -/
def IsTitleEnd (tag : List Char) : Prop :=
  tag = "</title>".toList

/-- A page has a head to link assets in. -/
def HasHead (html : List Char) : Prop :=
  HasPart IsHeadTag html

/-- What stands before and behind the place where a page links its assets. -/
inductive LinkPlace (html : List Char) : (before after : List Char) → Prop where
  | behindTitle {ahead tag rest upTo title after : List Char} :
    FirstPart IsHeadTag html ahead tag rest →
    FirstPart IsTitleEnd (tag ++ rest) upTo title after →
    LinkPlace html (ahead ++ (upTo ++ title)) after
  | behindTag {ahead tag rest : List Char} :
    FirstPart IsHeadTag html ahead tag rest → ¬HasPart IsTitleEnd (tag ++ rest) →
    LinkPlace html (ahead ++ tag) rest

section

variable {Kind : List Char → Prop} {text before part after : List Char} {c : Char}

theorem FirstPart.hasPart (h : FirstPart Kind text before part after) : HasPart Kind text :=
  ⟨before, part, after, h.eq, h.kind⟩

theorem FirstPart.here (h : Kind part) : FirstPart Kind (part ++ after) [] part after :=
  ⟨rfl, h, fun _ _ _ _ _ => Nat.zero_le _⟩

/-- Where no such part begins, the first one is that of the rest. -/
theorem FirstPart.cons (hNot : ∀ p a, c :: text = p ++ a → ¬Kind p)
    (h : FirstPart Kind text before part after) :
    FirstPart Kind (c :: text) (c :: before) part after where
  eq := by rw [h.eq]; rfl
  kind := h.kind
  first b p a hEq hKind := by
    cases b with
    | nil => exact absurd hKind (hNot p a hEq)
    | cons d b => exact Nat.succ_le_succ (h.first b p a (List.cons.inj hEq).2 hKind)

theorem HasPart.of_cons (hNot : ∀ p a, c :: text = p ++ a → ¬Kind p)
    (h : HasPart Kind (c :: text)) : HasPart Kind text := by
  obtain ⟨b, p, a, hEq, hKind⟩ := h
  cases b with
  | nil => exact absurd hKind (hNot p a hEq)
  | cons d b => exact ⟨b, p, a, (List.cons.inj hEq).2, hKind⟩

/-- Two accounts of the first part agree on where it begins. -/
theorem FirstPart.before_eq {b p a : List Char} (h : FirstPart Kind text before part after)
    (hOther : FirstPart Kind text b p a) : before = b ∧ part ++ after = p ++ a := by
  have hLength : before.length = b.length :=
    Nat.le_antisymm (h.first b p a hOther.eq hOther.kind)
      (hOther.first before part after h.eq h.kind)
  have hSame := h.eq.symm.trans hOther.eq
  rw [List.append_assoc, List.append_assoc] at hSame
  exact List.append_inj hSame hLength

/-- A search finds the first occurrence. -/
theorem firstPart_of_splitFirst? (h : Text.splitFirst? part text = some (before, after)) :
    FirstPart (· = part) text before part after := by
  induction text generalizing before with
  | nil =>
      simp only [Text.splitFirst?, Option.map_eq_some_iff, Prod.mk.injEq] at h
      obtain ⟨rest, hFound, rfl, rfl⟩ := h
      exact ⟨Text.dropPrefix?_eq_some hFound, rfl, fun _ _ _ _ _ => Nat.zero_le _⟩
  | cons c text ih =>
      unfold Text.splitFirst? at h
      split at h
      · next rest hFound =>
        cases h
        rw [Text.dropPrefix?_eq_some hFound]
        exact .here rfl
      · next hNone =>
        simp only [Option.map_eq_some_iff, Prod.mk.injEq] at h
        obtain ⟨⟨inner, rest⟩, hFound, rfl, rfl⟩ := h
        apply (ih hFound).cons
        rintro p a hEq rfl
        rw [hEq, Text.dropPrefix?_append] at hNone
        cases hNone

/-- A search that finds nothing has missed nothing. -/
theorem not_hasPart_of_splitFirst? (h : Text.splitFirst? part text = none) :
    ¬HasPart (· = part) text := by
  induction text with
  | nil =>
      rintro ⟨b, p, a, hEq, rfl⟩
      obtain ⟨rfl, -⟩ := List.append_eq_nil_iff.mp (List.append_eq_nil_iff.mp hEq.symm).1
      obtain ⟨-, rfl⟩ := List.append_eq_nil_iff.mp (List.append_eq_nil_iff.mp hEq.symm).1
      cases h
  | cons c text ih =>
      unfold Text.splitFirst? at h
      split at h
      · cases h
      · next hNone =>
        intro hPart
        refine ih (Option.map_eq_none_iff.mp h) (hPart.of_cons ?_)
        rintro p a hEq rfl
        rw [hEq, Text.dropPrefix?_append] at hNone
        cases hNone

end

/-- The name that a text begins with, in any case, and what follows it. -/
theorem dropPrefixIgnoringCase?_eq_some_iff {part text rest : List Char} :
    Text.dropPrefixIgnoringCase? part text = some rest ↔
      ∃ name, text = name ++ rest ∧ name.map Char.toLower = part := by
  induction part generalizing text with
  | nil => simp [Text.dropPrefixIgnoringCase?]
  | cons p part ih =>
      cases text with
      | nil => simp [Text.dropPrefixIgnoringCase?]
      | cons c text =>
          unfold Text.dropPrefixIgnoringCase?
          split
          · next hSame =>
            rw [ih]
            constructor
            · rintro ⟨name, rfl, rfl⟩
              exact ⟨c :: name, rfl, by simp [hSame]⟩
            · rintro ⟨_ | ⟨d, name⟩, hText, hName⟩
              · cases hName
              · obtain ⟨-, rfl⟩ := List.cons.inj hText
                exact ⟨name, rfl, (List.cons.inj hName).2⟩
          · next hOther =>
            constructor
            · intro h
              cases h
            · rintro ⟨_ | ⟨d, name⟩, hText, hName⟩
              · cases hName
              · obtain ⟨rfl, -⟩ := List.cons.inj hText
                exact absurd (List.cons.inj hName).1.symm hOther

theorem opensHead_iff {text : List Char} :
    opensHead text = true ↔ ∃ name c rest, text = name ++ c :: rest ∧
      name.map Char.toLower = "<head".toList ∧ (c = '>' ∨ Text.isBlank c = true) := by
  have hFound (c : Char) (rest : List Char) :=
    @dropPrefixIgnoringCase?_eq_some_iff "<head".toList text (c :: rest)
  unfold opensHead
  split
  · next c rest hDrop =>
    obtain ⟨name, hText, hName⟩ := (hFound c rest).mp hDrop
    simp only [Bool.or_eq_true, decide_eq_true_eq]
    constructor
    · exact fun hNext => ⟨name, c, rest, hText, hName, hNext⟩
    · rintro ⟨other, d, more, hText', hName', hNext⟩
      have hDrop' := (hFound d more).mpr ⟨other, hText', hName'⟩
      cases hDrop.symm.trans hDrop'
      exact hNext
  · next hNone =>
    refine ⟨nofun, ?_⟩
    rintro ⟨name, c, rest, hText, hName, -⟩
    exact absurd ((hFound c rest).mpr ⟨name, hText, hName⟩) (hNone c rest)

/-- A name that is `<head` in some case is not empty and has no bracket behind its first
character. -/
theorem exists_cons_of_head {name : List Char} (h : name.map Char.toLower = "<head".toList) :
    ∃ c rest, name = c :: rest ∧ '>' ∉ c :: rest := by
  have hBracket : '>' ∉ name := by
    intro hMem
    have hLower := List.mem_map_of_mem (f := Char.toLower) hMem
    rw [h] at hLower
    revert hLower
    decide
  cases name with
  | nil => cases h
  | cons c rest => exact ⟨c, rest, rfl, hBracket⟩

/-- A head tag ends with its only bracket. -/
theorem IsHeadTag.eq_append {tag : List Char} (h : IsHeadTag tag) :
    ∃ c inner, tag = c :: inner ++ ['>'] ∧ '>' ∉ c :: inner := by
  obtain ⟨name, attributes, rfl, hName, -, hAttributes⟩ := h
  obtain ⟨c, rest, rfl, hBracket⟩ := exists_cons_of_head hName
  exact ⟨c, rest ++ attributes, rfl, fun h => (List.mem_append.mp h).elim hBracket hAttributes⟩

/-- A bracket that closes a head tag is not the first character of the text. -/
theorem HasHead.mem_rest {c : Char} {rest : List Char} (h : HasHead (c :: rest)) : '>' ∈ rest := by
  obtain ⟨before, tag, after, hText, hTag⟩ := h
  obtain ⟨d, inner, rfl, -⟩ := hTag.eq_append
  cases before with
  | nil =>
      obtain ⟨-, rfl⟩ := List.cons.inj hText
      simp
  | cons e before =>
      obtain ⟨-, rfl⟩ := List.cons.inj hText
      simp

theorem IsHeadTag.takeWhile_append {tag : List Char} (h : IsHeadTag tag) (after : List Char) :
    (tag ++ after).takeWhile (· ≠ '>') ++ ['>'] = tag := by
  obtain ⟨c, inner, rfl, hBracket⟩ := h.eq_append
  have hInner : ∀ d ∈ c :: inner, decide (d ≠ '>') = true := by
    intro d hMem
    exact decide_eq_true (ne_of_mem_of_not_mem hMem hBracket)
  rw [List.append_assoc, List.takeWhile_append_of_pos hInner]
  simp

/-- A head tag begins where a text looks like it, if there is a bracket to close it. -/
theorem begins_iff {c : Char} {rest : List Char} :
    (∃ tag after, c :: rest = tag ++ after ∧ IsHeadTag tag) ↔
      opensHead (c :: rest) = true ∧ '>' ∈ rest := by
  rw [opensHead_iff]
  constructor
  · rintro ⟨tag, after, hText, hTag⟩
    constructor
    · obtain ⟨name, attributes, rfl, hName, hBlank, -⟩ := hTag
      cases attributes with
      | nil => exact ⟨name, '>', after, by simpa using hText, hName, .inl rfl⟩
      | cons d more => exact ⟨name, d, more ++ '>' :: after, by simpa using hText, hName,
          .inr (hBlank d rfl)⟩
    · exact HasHead.mem_rest ⟨[], tag, after, hText, hTag⟩
  · rintro ⟨⟨name, d, more, hText, hName, hNext⟩, hMem⟩
    obtain ⟨e, inner, rfl, hBracket⟩ := exists_cons_of_head hName
    obtain ⟨rfl, rfl⟩ := List.cons.inj hText
    rcases hNext with rfl | hBlank
    · exact ⟨c :: inner ++ [] ++ ['>'], more, by simp,
        ⟨c :: inner, [], rfl, hName, nofun, List.not_mem_nil⟩⟩
    · have hMore : '>' ∈ more := by
        rcases List.mem_append.mp hMem with hInner | hBehind
        · exact absurd (List.mem_cons_of_mem _ hInner) hBracket
        · rcases List.mem_cons.mp hBehind with rfl | hMore
          · cases hBlank
          · exact hMore
      obtain ⟨attributes, after, rfl, hFirst⟩ := List.eq_append_cons_of_mem hMore
      refine ⟨c :: inner ++ d :: attributes ++ ['>'], after, by simp,
        ⟨c :: inner, d :: attributes, rfl, hName, ?_, ?_⟩⟩
      · rintro _ ⟨⟩
        exact hBlank
      · rintro (_ | ⟨_, hBracket'⟩)
        · cases hBlank
        · exact hFirst hBracket'

theorem splitHead?_eq_some {html before head : List Char}
    (h : splitHead? html = some (before, head)) :
    ∃ tag after, head = tag ++ after ∧ FirstPart IsHeadTag html before tag after := by
  induction html generalizing before with
  | nil => cases h
  | cons c rest ih =>
      unfold splitHead? at h
      split at h
      · next hOpens =>
        split at h
        · next hBracket =>
          cases h
          obtain ⟨tag, after, hText, hTag⟩ := begins_iff.mpr
            ⟨hOpens, List.contains_iff_mem.mp hBracket⟩
          exact ⟨tag, after, hText, hText ▸ .here hTag⟩
        · cases h
      · next hNot =>
        simp only [Option.map_eq_some_iff, Prod.mk.injEq] at h
        obtain ⟨⟨inner, _⟩, hFound, rfl, rfl⟩ := h
        obtain ⟨tag, after, hHead, hFirst⟩ := ih hFound
        refine ⟨tag, after, hHead, hFirst.cons ?_⟩
        exact fun p a hText hTag => hNot (begins_iff.mp ⟨p, a, hText, hTag⟩).1

theorem splitHead?_eq_none {html : List Char} (h : splitHead? html = none) : ¬HasHead html := by
  induction html with
  | nil =>
      rintro ⟨b, tag, a, hText, hTag⟩
      obtain ⟨c, inner, rfl, -⟩ := hTag.eq_append
      simp at hText
  | cons c rest ih =>
      unfold splitHead? at h
      split at h
      · split at h
        · cases h
        · -- a head tag further on would have a bracket, too
          next hBracket =>
          intro hHead
          exact hBracket (List.contains_iff_mem.mpr (HasHead.mem_rest hHead))
      · next hNot =>
        intro hHead
        refine ih (Option.map_eq_none_iff.mp h) (HasPart.of_cons ?_ hHead)
        exact fun p a hText hTag => hNot (begins_iff.mp ⟨p, a, hText, hTag⟩).1

/-- There is one place to link assets at. -/
theorem LinkPlace.unique {html before after b a : List Char} (h : LinkPlace html before after)
    (hOther : LinkPlace html b a) : before = b ∧ after = a := by
  have hTags {ahead tag rest ahead' tag' rest' : List Char}
      (hFirst : FirstPart IsHeadTag html ahead tag rest)
      (hFirst' : FirstPart IsHeadTag html ahead' tag' rest') :
      ahead = ahead' ∧ tag = tag' ∧ rest = rest' := by
    obtain ⟨rfl, hSame⟩ := hFirst.before_eq hFirst'
    have hTag := hFirst.kind.takeWhile_append rest
    rw [hSame, hFirst'.kind.takeWhile_append rest'] at hTag
    subst hTag
    exact ⟨rfl, rfl, List.append_cancel_left hSame⟩
  cases h with
  | behindTitle hHead hTitle =>
      cases hOther with
      | behindTitle hHead' hTitle' =>
          obtain ⟨rfl, rfl, rfl⟩ := hTags hHead hHead'
          obtain ⟨rfl, hSame⟩ := hTitle.before_eq hTitle'
          cases hTitle.kind
          cases hTitle'.kind
          exact ⟨rfl, List.append_cancel_left hSame⟩
      | behindTag hHead' hNone =>
          obtain ⟨rfl, rfl, rfl⟩ := hTags hHead hHead'
          exact absurd hTitle.hasPart hNone
  | behindTag hHead hNone =>
      cases hOther with
      | behindTitle hHead' hTitle =>
          obtain ⟨rfl, rfl, rfl⟩ := hTags hHead hHead'
          exact absurd hTitle.hasPart hNone
      | behindTag hHead' _ =>
          obtain ⟨rfl, rfl, rfl⟩ := hTags hHead hHead'
          exact ⟨rfl, rfl⟩

/-- Nothing is left out between what stands before the place and what stands behind it. -/
theorem LinkPlace.append_eq {html before after : List Char} (h : LinkPlace html before after) :
    before ++ after = html := by
  cases h with
  | behindTitle hHead hTitle =>
      have hTail := hTitle.eq
      rw [hHead.eq]
      simp only [List.append_assoc] at hTail ⊢
      rw [hTail]
  | behindTag hHead _ => exact hHead.eq.symm

/-- The tags of some stylesheets and then of some scripts. -/
def assetBlock (stylesheets scripts : List String) : List Char :=
  (stylesheets.map AssetKind.stylesheet.tag ++ scripts.map AssetKind.script.tag).flatMap
    String.toList

/-- A page with some files linked in it: as it was if there are none, with one block of tags
put in at its place if there are some. -/
inductive Linked (stylesheets scripts : List String) (html : List Char) : List Char → Prop where
  | nothing : stylesheets = [] → scripts = [] → Linked stylesheets scripts html html
  | block {before after : List Char} :
    ¬(stylesheets = [] ∧ scripts = []) → LinkPlace html before after →
    Linked stylesheets scripts html (before ++ assetBlock stylesheets scripts ++ after)

section

variable {html linked : List Char} {stylesheets scripts : List String}

theorem linkPlace_of_firstPart {ahead tag rest : List Char}
    (h : FirstPart IsHeadTag html ahead tag rest) :
    LinkPlace html (ahead ++ (splitLinkPlace (tag ++ rest)).1)
      (splitLinkPlace (tag ++ rest)).2 := by
  unfold splitLinkPlace
  split
  · next before after hFound => exact .behindTitle h (firstPart_of_splitFirst? hFound)
  · next hNone =>
    have hTag := h.kind.takeWhile_append rest
    have hLength := congrArg List.length hTag
    rw [List.length_append, List.length_singleton] at hLength
    dsimp only
    rw [hTag, hLength, List.drop_left]
    exact .behindTag h (not_hasPart_of_splitFirst? hNone)

theorem LinkPlace.hasHead {before after : List Char} (h : LinkPlace html before after) :
    HasHead html := by
  cases h with
  | behindTitle hHead _ => exact hHead.hasPart
  | behindTag hHead _ => exact hHead.hasPart

/-- In a page with a head, files are linked at their place. -/
theorem linkAssets_eq_ok (hAny : ¬(stylesheets = [] ∧ scripts = [])) (hHead : HasHead html) :
    ∃ before after, LinkPlace html before after ∧
      linkAssets html stylesheets scripts =
        .ok (before ++ assetBlock stylesheets scripts ++ after) := by
  unfold linkAssets
  rw [if_neg (by simpa using hAny)]
  cases hFound : splitHead? html with
  | none => exact absurd hHead (splitHead?_eq_none hFound)
  | some found =>
      obtain ⟨ahead, head⟩ := found
      obtain ⟨tag, rest, rfl, hFirst⟩ := splitHead?_eq_some hFound
      exact ⟨_, _, linkPlace_of_firstPart hFirst, rfl⟩

/-- In a page without a head, files cannot be linked. -/
theorem linkAssets_eq_error (hAny : ¬(stylesheets = [] ∧ scripts = [])) (hHead : ¬HasHead html) :
    linkAssets html stylesheets scripts =
      .error ⟨if scripts = [] then .stylesheet else .script⟩ := by
  unfold linkAssets
  rw [if_neg (by simpa using hAny)]
  cases hFound : splitHead? html with
  | none => rfl
  | some found =>
      obtain ⟨tag, rest, -, hFirst⟩ := splitHead?_eq_some hFound
      exact absurd hFirst.hasPart hHead

/-- Linking gives the page with the files linked in it, and nothing else. -/
theorem linkAssets_eq_ok_iff :
    linkAssets html stylesheets scripts = .ok linked ↔ Linked stylesheets scripts html linked := by
  by_cases hAny : stylesheets = [] ∧ scripts = []
  · obtain ⟨rfl, rfl⟩ := hAny
    constructor
    · intro h
      cases Except.ok.inj h
      exact .nothing rfl rfl
    · rintro (_ | ⟨hAny, _⟩)
      · rfl
      · exact absurd ⟨rfl, rfl⟩ hAny
  · constructor
    · intro h
      by_cases hHead : HasHead html
      · obtain ⟨before, after, hPlace, hLinked⟩ := linkAssets_eq_ok hAny hHead
        cases hLinked.symm.trans h
        exact .block hAny hPlace
      · rw [linkAssets_eq_error hAny hHead] at h
        cases h
    · intro h
      cases h with
      | nothing hStylesheets hScripts => exact absurd ⟨hStylesheets, hScripts⟩ hAny
      | block _ hPlace =>
          obtain ⟨before, after, hOther, hLinked⟩ := linkAssets_eq_ok hAny hPlace.hasHead
          obtain ⟨rfl, rfl⟩ := hOther.unique hPlace
          exact hLinked

/-- Linking fails where there is something to link and no head. -/
theorem linkAssets_eq_error_iff :
    (∃ e, linkAssets html stylesheets scripts = .error e) ↔
      ¬(stylesheets = [] ∧ scripts = []) ∧ ¬HasHead html := by
  constructor
  · rintro ⟨e, h⟩
    by_cases hAny : stylesheets = [] ∧ scripts = []
    · obtain ⟨rfl, rfl⟩ := hAny
      cases h
    · refine ⟨hAny, fun hHead => ?_⟩
      obtain ⟨before, after, -, hLinked⟩ := linkAssets_eq_ok hAny hHead
      cases hLinked.symm.trans h
  · rintro ⟨hAny, hHead⟩
    exact ⟨_, linkAssets_eq_error hAny hHead⟩

end

end HtmlTemplate
