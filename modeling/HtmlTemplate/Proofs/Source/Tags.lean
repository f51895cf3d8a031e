import HtmlTemplate.Proofs.Assets.Place
import HtmlTemplate.Proofs.Render.Balance
import HtmlTemplate.Proofs.Script.Lexemes
import HtmlTemplate.Proofs.Source.Conditional

/-! Plain markup before the scanner. A character that begins nothing, a run of word
characters, a tag up to its first `>` and the content of a raw element are each found as
they are written, whatever follows them. -/
namespace HtmlTemplate

theorem toLower_toLower (c : Char) : c.toLower.toLower = c.toLower := by
  unfold Char.toLower
  by_cases hUpper : c.val ≥ 'A'.val ∧ c.val ≤ 'Z'.val
  · rw [dif_pos hUpper, dif_neg]
    rintro ⟨-, hLe⟩
    obtain ⟨hFirst, hLast⟩ := hUpper
    simp only [ge_iff_le, UInt32.le_iff_toNat_le, UInt32.toNat_add] at hFirst hLast hLe
    simp only [show 'A'.val.toNat = 65 from rfl, show 'Z'.val.toNat = 90 from rfl,
      show ('a'.val - 'A'.val).toNat = 32 from rfl] at hFirst hLast hLe
    omega
  · rw [dif_neg hUpper, dif_neg hUpper]

/-- A character that is no letter is in lower case what it is, and nothing else is. -/
theorem toLower_eq_iff {c d : Char} (h : d.isAlpha = false) : c.toLower = d ↔ c = d := by
  obtain ⟨hNotUpper, hNotLower⟩ : d.isUpper = false ∧ d.isLower = false :=
    Bool.or_eq_false_iff.mp h
  have hUpper : ¬(d.val ≥ 'A'.val ∧ d.val ≤ 'Z'.val) := of_decide_eq_false hNotUpper
  have hLower : decide (d.val ≥ 'a'.val) = false ∨ decide (d.val ≤ 'z'.val) = false :=
    Bool.and_eq_false_iff.mp hNotLower
  simp only [ge_iff_le, decide_eq_false_iff_not, UInt32.le_iff_toNat_le,
    show 'a'.val.toNat = 97 from rfl, show 'z'.val.toNat = 122 from rfl,
    show 'A'.val.toNat = 65 from rfl, show 'Z'.val.toNat = 90 from rfl] at hUpper hLower
  unfold Char.toLower
  split
  · next hUpper =>
    obtain ⟨hFirst, hLast⟩ := hUpper
    simp only [ge_iff_le, UInt32.le_iff_toNat_le, show 'A'.val.toNat = 65 from rfl,
      show 'Z'.val.toNat = 90 from rfl] at hFirst hLast
    refine ⟨fun hSame => ?_, fun hSame => ?_⟩
    · have hVal := congrArg (fun c : Char => c.val.toNat) hSame
      simp only [UInt32.toNat_add, show ('a'.val - 'A'.val).toNat = 32 from rfl] at hVal
      omega
    · subst hSame
      omega
  · rfl

theorem map_toLower_ofList (name : List Char) :
    (String.ofList (name.map Char.toLower)).map Char.toLower =
      String.ofList (name.map Char.toLower) := by
  apply String.toList_injective
  rw [String.toList_map, String.toList_ofList, List.map_map]
  exact List.map_congr_left fun c _ => toLower_toLower c

/-- The case of its name does not matter for whether an element is raw. -/
theorem isRawElement_toLower (name : List Char) :
    isRawElement (String.ofList (name.map Char.toLower)) = isRawElement (String.ofList name) := by
  have hLower : (String.ofList name).map Char.toLower = String.ofList (name.map Char.toLower) := by
    apply String.toList_injective
    simp
  unfold isRawElement
  rw [map_toLower_ofList, hLower]

theorem isRawElement_of_isVoidElement {name : String} (h : isVoidElement name = true) :
    isRawElement name = false := by
  have hVoid : name.map Char.toLower ∈ voidElements := by simpa [isVoidElement] using h
  have hNone : ∀ element ∈ voidElements, rawElements.contains element = false := by decide
  exact hNone _ hVoid

namespace Source

/-- A tag ends with its first `>` and does not begin like a comment. -/
structure IsTag (tag : List Char) : Prop where
  closed : ∃ inner, tag = '<' :: (inner ++ ['>']) ∧ '>' ∉ inner
  apart : ¬"<!--".toList <+: tag

/-- The element that a tag opens. -/
def opened? (tag : List Char) : Option (List Char) :=
  if classifyTag tag = .openingTag then (tagParts? tag).map (·.1) else none

/-- The element that a tag closes. -/
def closed? (tag : List Char) : Option (List Char) :=
  if classifyTag tag = .closingTag then closingName? tag else none

/-- How the tag that closes an element begins, in lower case. -/
def closingStart (name : List Char) : List Char :=
  '<' :: '/' :: name.map Char.toLower

/-- A text in which a raw element of a name goes on: nothing in it begins like the tag that
closes the element, in whatever case. -/
def StaysRaw (name content : List Char) : Prop :=
  ¬closingStart name <:+: content.map Char.toLower

instance (name content : List Char) : Decidable (StaysRaw name content) :=
  inferInstanceAs (Decidable ¬_)

/-- A text that begins like the tag that closes an element. -/
def BeginsClosing (name text : List Char) : Prop :=
  closingStart name <+: text.map Char.toLower

instance (name text : List Char) : Decidable (BeginsClosing name text) :=
  inferInstanceAs (Decidable (_ <+: _))

section

variable {name content behind tag : List Char}

theorem dropPrefixIgnoringCase?_isSome {part text : List Char} :
    (Text.dropPrefixIgnoringCase? part text).isSome = true ↔ part <+: text.map Char.toLower := by
  rw [Option.isSome_iff_exists]
  constructor
  · rintro ⟨rest, h⟩
    obtain ⟨front, rfl, rfl⟩ := dropPrefixIgnoringCase?_eq_some_iff.mp h
    exact ⟨rest.map Char.toLower, List.map_append.symm⟩
  · rintro ⟨rest, h⟩
    obtain ⟨front, later, rfl, hFront, -⟩ := List.map_eq_append_iff.mp h.symm
    exact ⟨later, dropPrefixIgnoringCase?_eq_some_iff.mpr ⟨front, rfl, hFront⟩⟩

/-- The content of a raw element ends where the tag that closes it begins. -/
theorem beforeClosing_append (hName : '<' ∉ name.map Char.toLower)
    (hContent : StaysRaw name content) (hBehind : BeginsClosing name behind) :
    beforeClosing (closingStart name) (content ++ behind) = content := by
  induction content with
  | nil =>
      cases behind with
      | nil => rfl
      | cons c behind => exact if_pos (dropPrefixIgnoringCase?_isSome.mpr hBehind)
  | cons c content ih =>
      have hHere : ¬closingStart name <+: (c :: (content ++ behind)).map Char.toLower := by
        rintro ⟨rest, hRest⟩
        rw [← List.cons_append, List.map_append] at hRest
        rcases List.append_eq_append_iff.mp hRest with ⟨tail, hTail, -⟩ | ⟨tail, hTail, hLater⟩
        · exact hContent ⟨[], tail, hTail.symm⟩
        · -- the tag behind the content would begin within the name
          obtain ⟨more, hMore⟩ := hBehind
          cases tail with
          | nil => exact hContent ⟨[], [], by simpa using hTail⟩
          | cons first tail =>
              obtain ⟨-, hInner⟩ := List.cons.inj hTail
              obtain rfl : '<' = first := (List.cons.inj (hMore.trans hLater)).1
              have hMem : '<' ∈ '/' :: name.map Char.toLower := hInner ▸ by simp
              exact hName (by simpa using hMem)
      have hLater : StaysRaw name content := fun hMem =>
        hContent (hMem.trans (List.suffix_cons _ _).isInfix)
      rw [List.cons_append, beforeClosing,
        if_neg (fun hSome => hHere (dropPrefixIgnoringCase?_isSome.mp hSome)), ih hLater]

theorem IsTag.takeWhile (h : IsTag tag) (behind : List Char) :
    (tag ++ behind).takeWhile (· ≠ '>') ++ ['>'] = tag ∧
      (tag ++ behind).dropWhile (· ≠ '>') = '>' :: behind := by
  obtain ⟨⟨inner, rfl, hInner⟩, -⟩ := h
  have hPass : ∀ c ∈ '<' :: inner, (decide (c ≠ '>')) = true := by
    simp only [List.mem_cons, decide_eq_true_eq]
    rintro c (rfl | hMem)
    · decide
    · exact fun hSame => hInner (hSame ▸ hMem)
  have hText : '<' :: (inner ++ ['>']) ++ behind = ('<' :: inner) ++ ('>' :: behind) := by simp
  rw [hText, List.takeWhile_append_of_pos hPass, List.dropWhile_append_of_pos hPass]
  simp

theorem dropWhile_append_stop {p : Char → Bool} {last : Char} (hLast : p last = false)
    (text : List Char) : (text ++ [last]).dropWhile p = text.dropWhile p ++ [last] := by
  rw [List.dropWhile_append]
  cases hText : text.dropWhile p with
  | nil => simp [hLast]
  | cons c rest => rfl

/-- A tag names the element that it opens right behind its `<`. -/
theorem IsTag.opened?_eq (h : IsTag tag) : opened? tag =
    if classifyTag tag = .openingTag ∧ tagName tag ≠ [] then some (tagName tag) else none := by
  obtain ⟨⟨inner, rfl, hInner⟩, -⟩ := h
  have hRest : ((inner ++ ['>']).dropWhile isNameChar).dropWhile (· ≠ '>') = ['>'] := by
    rw [dropWhile_append_stop (by rfl), List.dropWhile_append_of_pos]
    · rfl
    · intro c hMem
      have hc : c ∈ inner := (List.dropWhile_suffix _).subset hMem
      simpa using fun hSame : c = '>' => hInner (hSame ▸ hc)
  have hName : tagName ('<' :: (inner ++ ['>'])) = (inner ++ ['>']).takeWhile isNameChar := rfl
  unfold opened?
  rw [hName, tagParts?, hRest]
  by_cases hKind : classifyTag ('<' :: (inner ++ ['>'])) = .openingTag
  · by_cases hNone : (inner ++ ['>']).takeWhile isNameChar = []
    · simp [hNone]
    · simp [hKind, hNone]
  · simp [hKind]

theorem IsTag.name_of_opened? (h : IsTag tag) (hOpens : opened? tag = some name) :
    name ≠ [] ∧ name.all isNameChar = true := by
  rw [h.opened?_eq] at hOpens
  split at hOpens
  · next hShape =>
    cases hOpens
    exact ⟨hShape.2, List.all_takeWhile⟩
  · cases hOpens

/-- The raw element whose content the scanner takes along with a tag. -/
def rawName? (tag : List Char) : Option (List Char) :=
  (opened? tag).filter fun name => isRawElement (String.ofList name)

theorem opened?_eq_some_iff : opened? tag = some name ↔
    classifyTag tag = .openingTag ∧ ∃ attributes, tagParts? tag = some (name, attributes) := by
  unfold opened?
  by_cases hKind : classifyTag tag = .openingTag <;> simp [hKind]

theorem closed?_eq_some_iff : closed? tag = some name ↔
    classifyTag tag = .closingTag ∧ closingName? tag = some name := by
  unfold closed?
  by_cases hKind : classifyTag tag = .closingTag <;> simp [hKind]

theorem rawName?_eq_some_iff : rawName? tag = some name ↔
    opened? tag = some name ∧ isRawElement (String.ofList name) = true := by
  rw [rawName?, Option.filter_eq_some_iff]

theorem rawName?_of_opened? (hOpens : opened? tag = some name)
    (hRaw : isRawElement (String.ofList name) = false) : rawName? tag = none := by
  simp [rawName?, hOpens, hRaw, Option.filter]

theorem rawName?_of_closed? (h : closed? tag = some name) : rawName? tag = none := by
  simp [rawName?, opened?, (closed?_eq_some_iff.mp h).1]

theorem rawName?_of_void
    (h : ∀ name, opened? tag = some name → isVoidElement (String.ofList name) = true) :
    rawName? tag = none := by
  rw [Option.eq_none_iff_forall_ne_some]
  intro name hName
  obtain ⟨hOpened, hRaw⟩ := rawName?_eq_some_iff.mp hName
  cases hRaw.symm.trans (isRawElement_of_isVoidElement (h name hOpened))

theorem classifyTag_of_rawName? (h : rawName? tag = some name) :
    classifyTag tag = .openingTag :=
  (opened?_eq_some_iff.mp (rawName?_eq_some_iff.mp h).1).1

theorem BeginsClosing.append (h : BeginsClosing name text) (more : List Char) :
    BeginsClosing name (text ++ more) := by
  unfold BeginsClosing
  rw [List.map_append]
  exact h.trans (List.prefix_append _ _)

/-- A text without the beginning of a tag in front changes nothing. -/
theorem StaysRaw.front {front : List Char} (h : StaysRaw name content)
    (hFront : '<' ∉ front.map Char.toLower) : StaysRaw name (front ++ content) := by
  induction front with
  | nil => exact h
  | cons c front ih =>
      obtain ⟨hFirst, hRest⟩ := List.ne_and_not_mem_of_not_mem_cons hFront
      intro hMem
      rcases List.infix_cons_iff.mp hMem with hStarts | hLater
      · exact hFirst (List.cons_prefix_cons.mp hStarts).1
      · exact ih hRest hLater

/-- The scanner tells the opening tag of a raw element by the name in lower case. -/
theorem IsTag.rawName?_eq (h : IsTag tag) : rawName? tag =
    if classifyTag tag = .openingTag ∧
      isRawElement (String.ofList ((tagName tag).map Char.toLower)) = true then some (tagName tag)
    else none := by
  rw [isRawElement_toLower, rawName?, h.opened?_eq]
  by_cases hNone : tagName tag = []
  · simp [hNone, show isRawElement "" = false by decide +kernel]
  · by_cases hKind : classifyTag tag = .openingTag <;> simp [hKind, hNone, Option.filter]

end

section

variable {file : String} {c : Cursor} {text behind tag name content : List Char} {ch : Char}

theorem scanTag_eq (file : String) (h : IsTag tag) (hRest : c.rest = tag ++ behind) :
    scanTag file .markup c =
      let (token, after) := c.token file (classifyTag tag) tag tag.length
      match rawName? tag with
      | some name =>
        let content := beforeClosing (closingStart name) after.rest
        let (text, last) := after.token file .text content content.length
        .ok ⟨if content = [] then [token] else [token, text], .markup, last⟩
      | none => .ok ⟨[token], .markup, after⟩ := by
  obtain ⟨hTaken, hLeft⟩ := h.takeWhile behind
  have hLength : (c.rest.takeWhile (· ≠ '>')).length + 1 = tag.length := by
    rw [hRest]
    exact List.length_append.symm.trans (congrArg List.length hTaken)
  rw [← hRest] at hTaken hLeft
  unfold scanTag
  rw [hLeft, h.rawName?_eq]
  dsimp only
  rw [hTaken, hLength]
  by_cases hRaw : classifyTag tag = .openingTag ∧
      isRawElement (String.ofList ((tagName tag).map Char.toLower)) = true
  · simp only [hRaw, closingStart, decide_true, Bool.and_self, and_self, ↓reduceIte]
  · rw [if_neg hRaw, if_neg (by simpa using hRaw)]

theorem IsTag.not_comment (h : IsTag tag) (behind : List Char) :
    ¬"<!--".toList <+: tag ++ behind := by
  intro hStarts
  rcases List.prefix_or_prefix_of_prefix hStarts (List.prefix_append tag behind) with hTag | hShort
  · exact h.apart hTag
  · obtain ⟨⟨inner, rfl, -⟩, -⟩ := h
    have hMem : '>' ∈ "<!--".toList := hShort.subset (by simp)
    exact absurd hMem (by decide)

theorem scanStep_tag (file : String) (h : IsTag tag) (hRest : c.rest = tag ++ behind) :
    c.rest.head? = some '<' ∧ scanStep file .markup '<' c = scanTag file .markup c := by
  have hComment := h.not_comment behind
  obtain ⟨⟨inner, rfl, -⟩, -⟩ := h
  refine ⟨by rw [hRest]; rfl, ?_⟩
  have hNone : ("<!--".toList.isPrefixOf c.rest) = false := by
    rw [hRest, Bool.eq_false_iff]
    exact fun hStarts => hComment (List.isPrefixOf_iff_prefix.mp hStarts)
  unfold scanStep
  rw [hNone]
  rfl

/-- A tag that opens no raw element is one token. -/
theorem scansTo_tag (file : String) (h : IsTag tag) (hRaw : rawName? tag = none)
    (hRest : c.rest = tag ++ behind) :
    ∃ tokens after, ScansTo file c tokens after ∧
      tokens.map Token.lexeme = [(classifyTag tag, String.ofList tag)] ∧ after.rest = behind := by
  obtain ⟨hHead, hStep⟩ := scanStep_tag file h hRest
  have hTag := scanTag_eq file h hRest
  rw [hRaw] at hTag
  exact ⟨_, _, scansTo_of_step hHead (hStep.trans hTag), rfl, Cursor.rest_skip_length hRest⟩

theorem not_mem_of_isRawElement (h : isRawElement (String.ofList name) = true) :
    '<' ∉ name.map Char.toLower := by
  have hName : (String.ofList name).map Char.toLower ∈ rawElements := by
    simpa [isRawElement] using h
  have hText : ((String.ofList name).map Char.toLower).toList = name.map Char.toLower := by simp
  simp only [rawElements, List.mem_cons, List.not_mem_nil, or_false] at hName
  rw [← hText]
  rcases hName with hName | hName <;> rw [hName] <;> decide

/-- What the scanner makes of the content of a raw element. -/
def contentLexemes (content : List Char) : List (TokenKind × String) :=
  if content = [] then [] else [(.text, String.ofList content)]

theorem contentLexemes_kind {l : TokenKind × String} (h : l ∈ contentLexemes content) :
    l.1 = .text := by
  unfold contentLexemes at h
  split at h
  · cases h
  · rw [List.mem_singleton] at h
    rw [h]

/-- The opening tag of a raw element is found with the content of the element as one text. -/
theorem scansTo_raw (file : String) (h : IsTag tag) (hRaw : rawName? tag = some name)
    (hContent : StaysRaw name content) (hBehind : BeginsClosing name behind)
    (hRest : c.rest = tag ++ (content ++ behind)) :
    ∃ tokens after, ScansTo file c tokens after ∧
      tokens.map Token.lexeme =
        (classifyTag tag, String.ofList tag) :: contentLexemes content ∧
      after.rest = behind := by
  obtain ⟨hHead, hStep⟩ := scanStep_tag file h hRest
  have hTag := scanTag_eq file h hRest
  have hAfter : (c.token file (classifyTag tag) tag tag.length).2.rest = content ++ behind :=
    Cursor.rest_skip_length hRest
  have hName := not_mem_of_isRawElement (rawName?_eq_some_iff.mp hRaw).2
  rw [hRaw] at hTag
  dsimp only at hTag
  rw [hAfter, beforeClosing_append hName hContent hBehind] at hTag
  unfold contentLexemes
  by_cases hEmpty : content = []
  · subst hEmpty
    exact ⟨_, _, scansTo_of_step hHead (hStep.trans hTag), rfl, Cursor.rest_skip_length hAfter⟩
  · rw [if_neg hEmpty] at hTag
    rw [if_neg hEmpty]
    exact ⟨_, _, scansTo_of_step hHead (hStep.trans hTag), rfl, Cursor.rest_skip_length hAfter⟩

/-- A run of word characters. -/
theorem scansTo_word (file : String) {word : List Char} (hSome : word ≠ [])
    (hWord : word.all isWordChar = true)
    (hBehind : ∀ ch, behind.head? = some ch → isWordChar ch = false)
    (hRest : c.rest = word ++ behind) :
    ∃ tokens after, ScansTo file c tokens after ∧
      tokens.map Token.lexeme = [(.text, String.ofList word)] ∧ after.rest = behind := by
  obtain ⟨ch, others, rfl⟩ := List.exists_cons_of_ne_nil hSome
  have hFirst : isWordChar ch = true := List.all_eq_true.mp hWord ch List.mem_cons_self
  have hSpace : isSpace ch ≠ true := fun hSpace => by
    rw [isWordChar_of_isSpace hSpace] at hFirst
    cases hFirst
  have hComment : "<!--".toList.isPrefixOf c.rest = false := by
    rw [hRest, Bool.eq_false_iff]
    intro hStarts
    obtain ⟨rest, hSame⟩ := List.isPrefixOf_iff_prefix.mp hStarts
    obtain rfl : '<' = ch := (List.cons.inj hSame).1
    cases hFirst
  have hTaken : c.rest.takeWhile isWordChar = ch :: others := by
    rw [hRest, List.takeWhile_append_of_pos (List.all_eq_true.mp hWord)]
    cases behind with
    | nil => simp
    | cons d _ => simp [hBehind d rfl]
  have hScanned : scanWord file .markup c =
      ⟨[(c.token file .text (ch :: others) (ch :: others).length).1], .markup,
        c.skip (ch :: others).length⟩ := by
    unfold scanWord
    dsimp only
    rw [hTaken]
    rfl
  have hStep : scanStep file .markup ch c = .ok (scanWord file .markup c) := by
    unfold scanStep
    rw [hComment, Bool.and_false, if_neg hSpace, if_neg (by simp), if_neg nofun, if_pos hFirst]
  exact ⟨_, _, scansTo_of_step (by rw [hRest]; rfl) (hStep.trans (congrArg _ hScanned)), rfl,
    Cursor.rest_skip_length hRest⟩

/-- The kind of a character that begins nothing. -/
def charKind (ch : Char) : TokenKind :=
  if isSpace ch then .blank
  else if ch = '(' then .openParen
  else if ch = ')' then .closeParen
  else .unknown

/-- A character that begins nothing. -/
theorem scansTo_char (file : String) (hRest : c.rest = ch :: behind)
    (hWord : isWordChar ch = false) (hTag : ch ≠ '<') (hAt : ch ≠ '@') :
    ∃ tokens after, ScansTo file c tokens after ∧
      tokens.map Token.lexeme = [(charKind ch, String.ofList [ch])] ∧ after.rest = behind := by
  have hStep : scanStep file .markup ch c = .ok (scanSingle file (charKind ch) ch .markup c) := by
    have hComment : "<!--".toList.isPrefixOf c.rest = false := by
      rw [hRest, Bool.eq_false_iff]
      intro hStarts
      obtain ⟨rest, hSame⟩ := List.isPrefixOf_iff_prefix.mp hStarts
      exact hTag (List.cons.inj hSame).1.symm
    unfold scanStep charKind
    rw [hComment, Bool.and_false]
    by_cases hSpace : isSpace ch = true
    · rw [if_pos hSpace, if_pos hSpace]
    · have hSetup (b : Bool) : ¬(b && ScanMode.markup = ScanMode.setup) = true := by simp
      rw [if_neg hSpace, if_neg hSpace, if_neg (hSetup _), if_neg nofun,
        if_neg (Bool.eq_false_iff.mp hWord), if_neg (hSetup _)]
      by_cases hOpen : ch = '('
      · rw [if_pos hOpen, if_pos hOpen]
      by_cases hClose : ch = ')'
      · rw [if_neg hOpen, if_neg hOpen, if_pos hClose, if_pos hClose]
      · rw [if_neg hOpen, if_neg hOpen, if_neg hClose, if_neg hClose, if_neg hTag, if_neg hAt,
          if_neg (hSetup _)]
  have hBehind : (c.skip 1).rest = behind := by
    rw [Cursor.rest_skip, hRest]
    rfl
  exact ⟨_, _, scansTo_of_step (by rw [hRest]; rfl) hStep, rfl, hBehind⟩

end

theorem isBlank_of_isNameChar {c : Char} (h : isNameChar c = true) : Text.isBlank c = false := by
  refine Bool.eq_false_iff.mpr fun hBlank => ?_
  have hOther := Script.of_isBlank (p := fun c => !isNameChar c) (by decide) hBlank
  simp [h] at hOther

/-- The tag that closes an element of a name. -/
theorem closed?_of_name {name : List Char} (hSome : name ≠ [])
    (hName : name.all isNameChar = true) :
    IsTag ('<' :: '/' :: (name ++ ['>'])) ∧
      closed? ('<' :: '/' :: (name ++ ['>'])) = some name := by
  have hAll : ∀ c ∈ name, isNameChar c = true := List.all_eq_true.mp hName
  refine ⟨⟨⟨'/' :: name, rfl, ?_⟩, ?_⟩, closed?_eq_some_iff.mpr ⟨rfl, ?_⟩⟩
  · intro hMem
    rcases List.mem_cons.mp hMem with hFirst | hLater
    · exact absurd hFirst (by decide)
    · exact absurd (hAll _ hLater) (by decide)
  · rintro ⟨rest, hRest⟩
    exact absurd (List.cons.inj (List.cons.inj hRest).2).1 (by decide)
  · obtain ⟨c, rest, rfl⟩ := List.exists_cons_of_ne_nil hSome
    have hBlank : Text.isBlank c = false := isBlank_of_isNameChar (hAll c List.mem_cons_self)
    unfold closingName?
    simp only [List.cons_append, List.dropWhile_cons_of_neg (Bool.eq_false_iff.mp hBlank)]
    rw [← List.cons_append, List.takeWhile_append_of_pos hAll, List.dropWhile_append_of_pos hAll,
      List.takeWhile_cons_of_neg (by decide), List.dropWhile_cons_of_neg (by decide),
      List.append_nil, List.dropWhile_cons_of_neg (by decide)]
    rfl

/-- A closing tag of an element has nothing in it that substitution looks for. -/
theorem not_mem_of_closed? {text name : List Char} (hCloses : closed? text = some name) :
    ∃ rest, text = '<' :: '/' :: rest ∧ '<' ∉ rest ∧ '@' ∉ rest := by
  have h := (closed?_eq_some_iff.mp hCloses).2
  unfold closingName? at h
  split at h
  · next rest =>
    refine ⟨rest, rfl, ?_⟩
    dsimp only at h
    split at h
    · next hShape =>
      simp only [Bool.and_eq_true, decide_eq_true_eq] at hShape
      have hNot {c : Char} (hBlank : Text.isBlank c = false) (hName : isNameChar c = false)
          (hLast : c ≠ '>') : c ∉ rest := by
        intro hMem
        have hPart {p : Char → Bool} {text : List Char} (hp : p c = false) (hMem : c ∈ text) :
            c ∈ text.dropWhile p := by
          rw [← List.takeWhile_append_dropWhile (p := p) (l := text)] at hMem
          refine (List.mem_append.mp hMem).resolve_left fun hFront => ?_
          cases hp.symm.trans (List.all_eq_true.mp List.all_takeWhile c hFront)
        have hEnd := hPart hBlank (hPart hName (hPart hBlank hMem))
        rw [hShape.2] at hEnd
        exact hLast (List.mem_singleton.mp hEnd)
      exact ⟨hNot (by decide) (by decide) (by decide), hNot (by decide) (by decide) (by decide)⟩
    · cases h
  · cases h

end Source

/-- The texts of some tokens put together. -/
def lexemesText (lexemes : List (TokenKind × String)) : List Char :=
  lexemes.flatMap (·.2.toList)

/-- In front of a text, the scanner finds tokens of some sort. -/
def Yields (P : List Token → Prop) (text behind : List Char) : Prop :=
  ∀ (file : String) (c : Cursor), c.rest = text ++ behind →
    ∃ tokens after, Source.ScansTo file c tokens after ∧ after.rest = behind ∧ P tokens

/-- These tokens are written as the text. -/
def Found (P : List Token → Prop) (text behind : List Char) : Prop :=
  Yields (fun tokens => valuesText tokens = text ∧ P tokens) text behind

/-- Tokens of these kinds and values. -/
def Lexed (lexemes : List (TokenKind × String)) (tokens : List Token) : Prop :=
  tokens.map Token.lexeme = lexemes

section

variable {P Q R : List Token → Prop} {text rest behind tag name content word : List Char}
  {ch : Char} {lexemes : List (TokenKind × String)} {tokens : List Token}

theorem valuesText_of_lexed (h : Lexed lexemes tokens) :
    valuesText tokens = lexemesText lexemes := by
  subst h
  unfold lexemesText
  rw [List.flatMap_map]
  rfl

theorem lexed_single {lexeme : TokenKind × String} (h : Lexed [lexeme] tokens) :
    ∃ t, tokens = [t] ∧ t.lexeme = lexeme :=
  List.map_eq_singleton_iff.mp h

theorem value_of_lexeme {t : Token} {kind : TokenKind}
    (h : t.lexeme = (kind, String.ofList text)) : t.kind = kind ∧ t.value.toList = text := by
  obtain ⟨hKind, hValue⟩ := Prod.mk.inj h
  exact ⟨hKind, by rw [hValue, String.toList_ofList]⟩

theorem Yields.imp (h : Yields P text behind) (hImp : ∀ tokens, P tokens → Q tokens) :
    Yields Q text behind := by
  intro file c hText
  obtain ⟨tokens, after, hScans, hAfter, hP⟩ := h file c hText
  exact ⟨tokens, after, hScans, hAfter, hImp tokens hP⟩

theorem Yields.append (h : Yields P text (rest ++ behind)) (hRest : Yields Q rest behind)
    (hBoth : ∀ s t, P s → Q t → R (s ++ t)) : Yields R (text ++ rest) behind := by
  intro file c hText
  obtain ⟨first, middle, hFirst, hMiddle, hP⟩ := h file c (by rw [hText, List.append_assoc])
  obtain ⟨second, after, hSecond, hAfter, hQ⟩ := hRest file middle hMiddle
  exact ⟨first ++ second, after, hFirst.trans hSecond, hAfter, hBoth _ _ hP hQ⟩

/-- What the scanner yields behind a token. -/
theorem Yields.cons {first : TokenKind × String}
    (hFirst : Yields (Lexed [first]) text (rest ++ behind)) (h : Yields P rest behind)
    (hBoth : ∀ t tokens, t.lexeme = first → P tokens → Q (t :: tokens)) :
    Yields Q (text ++ rest) behind :=
  hFirst.append h fun _ tokens hLexed hP => by
    obtain ⟨t, rfl, hLexeme⟩ := lexed_single hLexed
    exact hBoth t tokens hLexeme hP

/-- And in front of one. -/
theorem Yields.concat {last : TokenKind × String} (h : Yields P text (rest ++ behind))
    (hLast : Yields (Lexed [last]) rest behind)
    (hBoth : ∀ tokens t, P tokens → t.lexeme = last → Q (tokens ++ [t])) :
    Yields Q (text ++ rest) behind :=
  h.append hLast fun tokens _ hP hLexed => by
    obtain ⟨t, rfl, hLexeme⟩ := lexed_single hLexed
    exact hBoth tokens t hP hLexeme

theorem Found.yields (h : Found P text behind) : Yields P text behind :=
  Yields.imp h fun _ => And.right

theorem Found.imp (h : Found P text behind) (hImp : ∀ tokens, P tokens → Q tokens) :
    Found Q text behind :=
  Yields.imp h fun tokens => And.imp_right (hImp tokens)

theorem Found.append (h : Found P text (rest ++ behind)) (hRest : Found Q rest behind)
    (hBoth : ∀ s t, P s → Q t → R (s ++ t)) : Found R (text ++ rest) behind := by
  refine Yields.append h hRest fun s t hFirst hSecond => ⟨?_, hBoth s t hFirst.2 hSecond.2⟩
  rw [valuesText_append, hFirst.1, hSecond.1]

theorem found_nil (h : P []) : Found P [] behind :=
  fun file c hText => ⟨[], c, .refl file c, hText, rfl, h⟩

theorem yields_of_scansTo
    (h : ∀ (file : String) (c : Cursor), c.rest = text ++ behind →
      ∃ tokens after, Source.ScansTo file c tokens after ∧ tokens.map Token.lexeme = lexemes ∧
        after.rest = behind) : Yields (Lexed lexemes) text behind := by
  intro file c hRest
  obtain ⟨tokens, after, hScans, hLexed, hAfter⟩ := h file c hRest
  exact ⟨tokens, after, hScans, hAfter, hLexed⟩

theorem found_of_yields (hText : lexemesText lexemes = text)
    (h : Yields (Lexed lexemes) text behind) : Found (Lexed lexemes) text behind :=
  h.imp fun _ hLexed => ⟨(valuesText_of_lexed hLexed).trans hText, hLexed⟩

/-- What is found between two tokens. -/
theorem Found.between {first last : TokenKind × String} {front inner back : List Char}
    (hFront : Found (Lexed [first]) front (inner ++ (back ++ behind)))
    (hInner : Found P inner (back ++ behind)) (hBack : Found (Lexed [last]) back behind)
    (hAll : ∀ opening closing tokens, opening.lexeme = first → closing.lexeme = last → P tokens →
      R (opening :: (tokens ++ [closing]))) : Found R (front ++ (inner ++ back)) behind := by
  have hRest : Found (fun tokens => ∃ s t, tokens = s ++ [t] ∧ P s ∧ t.lexeme = last)
      (inner ++ back) behind := by
    refine hInner.append hBack fun s t hP hLast => ?_
    obtain ⟨closing, rfl, hLexeme⟩ := lexed_single hLast
    exact ⟨s, closing, rfl, hP, hLexeme⟩
  refine Found.append (by rwa [List.append_assoc]) hRest fun s t hFirst hBehind => ?_
  obtain ⟨opening, rfl, hLexeme⟩ := lexed_single hFirst
  obtain ⟨tokens, closing, rfl, hP, hLast⟩ := hBehind
  exact hAll opening closing tokens hLexeme hLast hP

theorem found_tag (hTag : Source.IsTag tag) (hRaw : Source.rawName? tag = none)
    (behind : List Char) :
    Found (Lexed [(Source.classifyTag tag, String.ofList tag)]) tag behind :=
  found_of_yields (by simp [lexemesText])
    (yields_of_scansTo fun file _ => Source.scansTo_tag file hTag hRaw)

theorem lexemesText_contentLexemes (content : List Char) :
    lexemesText (Source.contentLexemes content) = content := by
  by_cases hEmpty : content = [] <;> simp [lexemesText, Source.contentLexemes, hEmpty]

theorem found_raw (hTag : Source.IsTag tag) (hRaw : Source.rawName? tag = some name)
    (hContent : Source.StaysRaw name content) (hBehind : Source.BeginsClosing name behind) :
    Found (Lexed ((Source.classifyTag tag, String.ofList tag) :: Source.contentLexemes content))
      (tag ++ content) behind := by
  refine found_of_yields ?_ (yields_of_scansTo fun file c hRest => ?_)
  · have hContentText := lexemesText_contentLexemes content
    unfold lexemesText at hContentText ⊢
    rw [List.flatMap_cons, hContentText, String.toList_ofList]
  · rw [List.append_assoc] at hRest
    exact Source.scansTo_raw file hTag hRaw hContent hBehind hRest

theorem found_word (hSome : word ≠ []) (hWord : word.all Source.isWordChar = true)
    (hBehind : ∀ ch, behind.head? = some ch → Source.isWordChar ch = false) :
    Found (Lexed [(.text, String.ofList word)]) word behind :=
  found_of_yields (by simp [lexemesText])
    (yields_of_scansTo fun file _ => Source.scansTo_word file hSome hWord hBehind)

theorem found_char (hWord : Source.isWordChar ch = false) (hTag : ch ≠ '<') (hAt : ch ≠ '@')
    (behind : List Char) : Found (Lexed [(Source.charKind ch, String.ofList [ch])]) [ch] behind :=
  found_of_yields (by simp [lexemesText])
    (yields_of_scansTo fun file _ hRest => Source.scansTo_char file hRest hWord hTag hAt)

/-- A reference up to the parenthesis that closes it. -/
theorem found_reference {taken : List Char}
    (h : Source.enclosed? Source.plainParens 0 none taken = some taken) (behind : List Char) :
    Found (Lexed [(.reference, String.ofList ('@' :: '(' :: taken))]) ('@' :: '(' :: taken)
      behind := by
  refine found_of_yields (by simp [lexemesText]) (yields_of_scansTo fun file c hRest => ?_)
  have hHead : c.rest.head? = some '@' := by
    rw [hRest]
    rfl
  have hStep : Source.scanStep file .markup '@' c =
      .ok ⟨[(c.token file .reference ('@' :: '(' :: taken) (taken.length + 2)).1], .markup,
        c.skip (taken.length + 2)⟩ := by
    rw [Source.scanStep_at file c hHead]
    unfold Source.scanAt
    simp only [hRest, List.cons_append, List.drop_succ_cons, List.drop_zero, List.head?_cons,
      if_true, Source.enclosed?_append h behind]
    rfl
  have hAfter : (c.skip ('@' :: '(' :: taken).length).rest = behind :=
    Cursor.rest_skip_length hRest
  exact ⟨_, _, Source.scansTo_of_step hHead hStep, rfl, hAfter⟩

end

end HtmlTemplate
