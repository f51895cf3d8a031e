import HtmlTemplate.Proofs.Assets.Place
import HtmlTemplate.Proofs.Markup.References

/-! What substitution is in the midst of. A text that is substituted in front of another one is
substituted as if it stood alone if it leaves no reference and no raw element open; if it
leaves a raw element open, the other text is copied up to the tag that closes it. -/
namespace HtmlTemplate

/-- What substitution is in the midst of where a text ends. -/
inductive Amid where
  | nothing
  | reference
  | raw (name : String)
  | closing
  deriving Repr, DecidableEq

/-- The content of a raw element that a text begins with. -/
def rawContent (name : String) (text : List Char) : List Char :=
  Source.beforeClosing ('<' :: '/' :: name.toList) text

/-- How long the rest of a raw element is, with the tag that closes it. -/
def rawLength (name : String) (text : List Char) : Nat :=
  (rawContent name text).length +
    ((text.drop (rawContent name text).length).takeWhile (· ≠ '>')).length + 1

/-- What substitution makes of a text inside of a raw element. -/
def keepRaw (bag : Bag) (name : String) (text : List Char) : List Char :=
  text.take (rawLength name text) ++ substitute bag (text.drop (rawLength name text))

/-- What substitution makes of a text inside of the tag that closes a raw element. -/
def keepTag (bag : Bag) (text : List Char) : List Char :=
  text.take ((text.takeWhile (· ≠ '>')).length + 1) ++
    substitute bag (text.drop ((text.takeWhile (· ≠ '>')).length + 1))

/-- The raw element that is opened by the text behind a `<`. -/
def rawOpened? (text : List Char) : Option String :=
  rawElements.find? (opensRaw · text)

/-- Where substitution is at the end of a text. -/
def amid (text : List Char) : Amid :=
  match text with
  | [] => .nothing
  | c :: rest =>
    if c = '@' && rest.head? = some '(' then
      match _inner : referenceInner? (rest.drop 1) with
      | some (_, after) => amid after
      | none => if '\n' ∈ rest then amid rest else .reference
    else if c = '<' then
      match rawOpened? rest with
      | some name =>
        if rawLength name rest ≤ rest.length then amid (rest.drop (rawLength name rest))
        else if rawContent name rest = rest then .raw name else .closing
      | none => amid rest
    else amid rest
termination_by text.length
decreasing_by
  · have := length_referenceInner? _inner
    simp only [List.length_drop] at this
    simp only [List.length_cons]
    omega
  · simp
  · simp only [List.length_drop, List.length_cons]
    omega
  · simp
  · simp

section

variable {bag : Bag} {name : String} {text more rest : List Char}

theorem substitute_unclosed (h : referenceInner? rest = none) :
    substitute bag ('@' :: '(' :: rest) = '@' :: substitute bag ('(' :: rest) := by
  rw [substitute.eq_def]
  dsimp only
  rw [if_pos (by rfl)]
  split
  · next found => cases h.symm.trans found
  · rfl

theorem substitute_raw (h : rawOpened? rest = some name) :
    substitute bag ('<' :: rest) = '<' :: keepRaw bag name rest := by
  have hLength : rawElementLength? rest = some (rawLength name rest) := by
    unfold rawOpened? rawElements at h
    unfold rawElementLength?
    rw [h]
    rfl
  rw [substitute.eq_def]
  simp [hLength, keepRaw]

theorem substitute_tag (h : rawOpened? rest = none) :
    substitute bag ('<' :: rest) = '<' :: substitute bag rest := by
  have hLength : rawElementLength? rest = none := by
    unfold rawOpened? rawElements at h
    unfold rawElementLength?
    rw [h]
    rfl
  rw [substitute.eq_def]
  simp [hLength]

theorem substitute_other {c : Char} (hAt : ¬(c = '@' ∧ rest.head? = some '(')) (hTag : c ≠ '<') :
    substitute bag (c :: rest) = c :: substitute bag rest := by
  rw [substitute.eq_def]
  simp [hAt, hTag]

/-- Without an `@` there is nothing to put in. -/
theorem substitute_of_not_mem (bag : Bag) (h : '@' ∉ text) : substitute bag text = text := by
  induction hLength : text.length using Nat.strongRecOn generalizing text with
  | ind length ih =>
      subst hLength
      cases text with
      | nil => rw [substitute.eq_def]
      | cons c rest =>
          obtain ⟨hFirst, hRest⟩ := List.ne_and_not_mem_of_not_mem_cons h
          by_cases hTag : c = '<'
          · subst hTag
            cases hName : rawOpened? rest with
            | none => rw [substitute_tag hName, ih _ (Nat.lt_succ_self _) hRest rfl]
            | some name =>
                have hDropped : '@' ∉ rest.drop (rawLength name rest) := fun hMem =>
                  hRest (List.mem_of_mem_drop hMem)
                have hLater := ih _ (by rw [List.length_drop, List.length_cons]; omega) hDropped rfl
                rw [substitute_raw hName, keepRaw, hLater, List.take_append_drop]
          · rw [substitute_other (fun hAt => hFirst hAt.1.symm) hTag,
              ih _ (Nat.lt_succ_self _) hRest rfl]

end

/-! Searches in a text that is followed by another one. -/

namespace Text

variable {part text more rest : List Char} {e : Char}

theorem dropPrefixIgnoringCase?_append (h : dropPrefixIgnoringCase? part text = some rest) :
    dropPrefixIgnoringCase? part (text ++ more) = some (rest ++ more) := by
  obtain ⟨name, rfl, hName⟩ := dropPrefixIgnoringCase?_eq_some_iff.mp h
  exact dropPrefixIgnoringCase?_eq_some_iff.mpr ⟨name, List.append_assoc .., hName⟩

/-- A text with a character that the part does not have differs from it within. -/
theorem dropPrefixIgnoringCase?_append_eq_none (he : e ∈ text) (hPart : e.toLower ∉ part)
    (h : dropPrefixIgnoringCase? part text = none) :
    dropPrefixIgnoringCase? part (text ++ more) = none := by
  induction part generalizing text with
  | nil => cases h
  | cons p part ih =>
      cases text with
      | nil => cases he
      | cons c text =>
          obtain ⟨hFirst, hRest⟩ := List.ne_and_not_mem_of_not_mem_cons hPart
          rw [List.cons_append]
          unfold dropPrefixIgnoringCase? at h ⊢
          split
          · next hSame =>
            rw [if_pos hSame] at h
            have hLater : e ∈ text := by
              rcases List.mem_cons.mp he with rfl | hLater
              · exact absurd hSame.symm hFirst
              · exact hLater
            exact ih hLater hRest h
          · rfl

end Text

/-- A text that is empty or ends like a tag or a reference. -/
def Ended (text : List Char) : Prop :=
  text = [] ∨ ['>'] <:+ text ∨ [')'] <:+ text

instance (text : List Char) : Decidable (Ended text) :=
  inferInstanceAs (Decidable (_ ∨ _))

/-- The rest of a text ends as the text does, if there is any. -/
theorem eq_nil_or_ends {c : Char} {text rest : List Char} (hEnd : [c] <:+ text)
    (hSuffix : rest <:+ text) : rest = [] ∨ [c] <:+ rest := by
  rcases List.suffix_or_suffix_of_suffix hEnd hSuffix with hLong | hShort
  · exact .inr hLong
  · rcases List.suffix_cons_iff.mp hShort with hWhole | hNone
    · exact .inr (hWhole ▸ List.suffix_rfl)
    · exact .inl (List.suffix_nil.mp hNone)

theorem Ended.suffix {text rest : List Char} (h : Ended text) (hSuffix : rest <:+ text) :
    Ended rest := by
  rcases h with rfl | hTag | hReference
  · exact .inl (List.suffix_nil.mp hSuffix)
  · exact (eq_nil_or_ends hTag hSuffix).imp_right .inl
  · exact (eq_nil_or_ends hReference hSuffix).imp_right .inr

/-- Such an end is not the beginning of anything. -/
theorem Ended.tail_ne_nil {c : Char} {rest : List Char} (h : Ended (c :: rest))
    (hBegins : c = '@' ∨ c = '<') : rest ≠ [] := by
  rintro rfl
  rcases hBegins with rfl | rfl <;> revert h <;> decide

/-- Such an end is in no name of a raw element. -/
theorem Ended.exists_mem {text : List Char} (h : Ended text) (hSome : text ≠ []) {name : String}
    (hName : name ∈ rawElements) : ∃ e ∈ text, e.toLower ∉ '<' :: '/' :: name.toList := by
  have hApart {e : Char} (he : e = '>' ∨ e = ')') : e.toLower ∉ '<' :: '/' :: name.toList := by
    simp only [rawElements, List.mem_cons, List.not_mem_nil, or_false] at hName
    rcases hName with rfl | rfl <;> rcases he with rfl | rfl <;> decide
  rcases h with hNone | hTag | hReference
  · exact absurd hNone hSome
  · exact ⟨'>', hTag.mem List.mem_cons_self, hApart (.inl rfl)⟩
  · exact ⟨')', hReference.mem List.mem_cons_self, hApart (.inr rfl)⟩

section

variable {bag : Bag} {name : String} {text more rest : List Char}

theorem opensRaw_append (h : Ended text) (hSome : text ≠ []) (hName : name ∈ rawElements) :
    opensRaw name (text ++ more) = opensRaw name text := by
  obtain ⟨e, he, hApart⟩ := h.exists_mem hSome hName
  have hNot : e.toLower ∉ name.toList := fun hMem =>
    hApart (List.mem_cons_of_mem _ (List.mem_cons_of_mem _ hMem))
  unfold opensRaw
  cases hDrop : Text.dropPrefixIgnoringCase? name.toList text with
  | none => rw [Text.dropPrefixIgnoringCase?_append_eq_none he hNot hDrop]
  | some behind =>
      rw [Text.dropPrefixIgnoringCase?_append hDrop]
      cases behind with
      | nil =>
          -- the name would be all of the text, and the text ends otherwise
          obtain ⟨_, hText, hSame⟩ := dropPrefixIgnoringCase?_eq_some_iff.mp hDrop
          rw [List.append_nil] at hText
          subst hText
          exact absurd (hSame ▸ List.mem_map_of_mem he) hNot
      | cons c behind => rfl

theorem rawOpened?_append (h : Ended text) (hSome : text ≠ []) (more : List Char) :
    rawOpened? (text ++ more) = rawOpened? text := by
  unfold rawOpened?
  simp only [rawElements, List.find?_cons, List.find?_nil]
  rw [opensRaw_append h hSome (by decide), opensRaw_append h hSome (by decide)]

theorem mem_rawElements (h : rawOpened? text = some name) : name ∈ rawElements :=
  List.mem_of_find?_eq_some h

/-- The content of a raw element ends in the text at hand, or in what follows it. -/
theorem rawContent_append (h : Ended text) (hName : name ∈ rawElements) :
    rawContent name (text ++ more) =
      if rawContent name text = text then text ++ rawContent name more
      else rawContent name text := by
  induction text with
  | nil => rfl
  | cons c text ih =>
      have hLater := ih (h.suffix (List.suffix_cons c text))
      obtain ⟨e, he, hApart⟩ := h.exists_mem (List.cons_ne_nil c text) hName
      unfold rawContent at hLater ⊢
      rw [List.cons_append, Source.beforeClosing, Source.beforeClosing]
      cases hDrop : Text.dropPrefixIgnoringCase? ('<' :: '/' :: name.toList) (c :: text) with
      | some behind =>
          have hThere := @Text.dropPrefixIgnoringCase?_append _ _ more _ hDrop
          rw [List.cons_append] at hThere
          simp [hThere]
      | none =>
          have hNowhere := @Text.dropPrefixIgnoringCase?_append_eq_none _ _ more e he hApart hDrop
          rw [List.cons_append] at hNowhere
          simp only [hNowhere, Option.isSome_none, Bool.false_eq_true, ↓reduceIte, hLater,
            List.cons.injEq, true_and]
          split <;> rfl

theorem rawContent_starts (name : String) (text : List Char) : rawContent name text <+: text :=
  Source.beforeClosing_prefix _ text

/-- A raw element that is closed in the text at hand. -/
theorem rawLength_append_of_closed (h : Ended text) (hName : name ∈ rawElements)
    (hClosed : rawLength name text ≤ text.length) :
    rawLength name (text ++ more) = rawLength name text := by
  have hContent : rawContent name text ≠ text := by
    intro hAll
    unfold rawLength at hClosed
    rw [hAll] at hClosed
    omega
  have hWithin := (rawContent_starts name text).length_le
  unfold rawLength at hClosed ⊢
  rw [rawContent_append h hName, if_neg hContent, List.drop_append_of_le_length hWithin]
  have hTag : ((text.drop (rawContent name text).length).takeWhile (· ≠ '>')).length ≠
      (text.drop (rawContent name text).length).length := by
    rw [List.length_drop]
    omega
  rw [List.takeWhile_append, if_neg hTag]

/-- A raw element whose content does not end in the text at hand. -/
theorem rawLength_append_of_open (h : Ended text) (hName : name ∈ rawElements)
    (hOpen : rawContent name text = text) :
    rawLength name (text ++ more) = text.length + rawLength name more := by
  unfold rawLength
  rw [rawContent_append h hName, if_pos hOpen, List.length_append, List.drop_length_add_append]
  omega

theorem keepRaw_append_of_closed (h : Ended text) (hName : name ∈ rawElements)
    (hClosed : rawLength name text ≤ text.length) :
    keepRaw bag name (text ++ more) = text.take (rawLength name text) ++
      substitute bag (text.drop (rawLength name text) ++ more) := by
  unfold keepRaw
  rw [rawLength_append_of_closed h hName hClosed, List.take_append_of_le_length hClosed,
    List.drop_append_of_le_length hClosed]

theorem keepRaw_append_of_open (h : Ended text) (hName : name ∈ rawElements)
    (hOpen : rawContent name text = text) :
    keepRaw bag name (text ++ more) = text ++ keepRaw bag name more := by
  unfold keepRaw
  rw [rawLength_append_of_open h hName hOpen, List.take_length_add_append,
    List.drop_length_add_append, List.append_assoc]

theorem referenceInner?_append {inner after : List Char}
    (h : referenceInner? text = some (inner, after)) :
    referenceInner? (text ++ more) = some (inner, after ++ more) := by
  obtain ⟨rfl, hClosing, hLine⟩ := referenceInner?_eq_some_iff.mp h
  exact referenceInner?_eq_some_iff.mpr ⟨by simp, hClosing, hLine⟩

/-- A reference does not go beyond its line. -/
theorem referenceInner?_append_eq_none (hLine : '\n' ∈ text) (h : referenceInner? text = none) :
    referenceInner? (text ++ more) = none := by
  rw [Option.eq_none_iff_forall_ne_some] at h ⊢
  rintro ⟨inner, after⟩ hFound
  obtain ⟨hText, hClosing, hInner⟩ := referenceInner?_eq_some_iff.mp hFound
  rcases List.append_eq_append_iff.mp hText with ⟨tail, rfl, -⟩ | ⟨tail, rfl, hAfter⟩
  · exact hInner (List.mem_append_left tail hLine)
  · cases tail with
    | nil => exact hInner (by simpa using hLine)
    | cons c tail =>
        obtain ⟨rfl, rfl⟩ := List.cons.inj hAfter
        exact h (inner, tail) (referenceInner?_eq_some_iff.mpr ⟨rfl, hClosing, hInner⟩)

end

/-- A raw element whose closing tag does not end in the text at hand. -/
theorem keepRaw_append_of_closing {bag : Bag} {name : String} {text more : List Char}
    (h : Ended text) (hName : name ∈ rawElements) (hOpen : text.length < rawLength name text)
    (hContent : rawContent name text ≠ text) :
    keepRaw bag name (text ++ more) = text ++ keepTag bag more := by
  have hWithin := (rawContent_starts name text).length_le
  have hTag : (text.drop (rawContent name text).length).takeWhile (· ≠ '>') =
      text.drop (rawContent name text).length := by
    apply (List.takeWhile_prefix _).eq_of_length_le
    unfold rawLength at hOpen
    rw [List.length_drop]
    omega
  have hLength : rawLength name (text ++ more) =
      text.length + ((more.takeWhile (· ≠ '>')).length + 1) := by
    unfold rawLength
    rw [rawContent_append h hName, if_neg hContent, List.drop_append_of_le_length hWithin,
      List.takeWhile_append, hTag, if_pos rfl, List.length_append, List.length_drop]
    omega
  unfold keepRaw keepTag
  rw [hLength, List.take_length_add_append, List.drop_length_add_append, List.append_assoc]

/-- What is left of a text for substitution to go on with when more of it comes. -/
inductive Left : List Char → Amid → Prop where
  | nothing : Left [] .nothing
  | reference {inner : List Char} (hClosing : ')' ∉ inner) (hLine : '\n' ∉ inner) :
      Left ('@' :: '(' :: inner) .reference
  | raw {text : List Char} {name : String} (hName : name ∈ rawElements)
      (hKeep : ∀ bag more, substitute bag (text ++ more) = text ++ keepRaw bag name more) :
      Left text (.raw name)
  | closing {text : List Char}
      (hKeep : ∀ bag more, substitute bag (text ++ more) = text ++ keepTag bag more) :
      Left text .closing

/-- Substitution is done with a text but for what is left of it. -/
def DoneBut (text left : List Char) : Prop :=
  ∃ done : Bag → List Char, ∀ bag more,
    substitute bag (text ++ more) = done bag ++ substitute bag (left ++ more)

theorem DoneBut.step {text rest left : List Char} (h : DoneBut rest left)
    (front : Bag → List Char)
    (hFront : ∀ bag more,
      substitute bag (text ++ more) = front bag ++ substitute bag (rest ++ more)) :
    DoneBut text left := by
  obtain ⟨done, hDone⟩ := h
  refine ⟨fun bag => front bag ++ done bag, fun bag more => ?_⟩
  rw [hFront, hDone, List.append_assoc]

theorem doneBut_self (text : List Char) : DoneBut text text :=
  ⟨fun _ => [], fun _ _ => rfl⟩

theorem exists_of_atReference {c : Char} {rest : List Char}
    (h : (decide (c = '@') && decide (rest.head? = some '(')) = true) :
    ∃ behind, c = '@' ∧ rest = '(' :: behind := by
  simp only [Bool.and_eq_true, decide_eq_true_eq] at h
  obtain ⟨behind, hRest⟩ := List.head?_eq_some_iff.mp h.2
  exact ⟨behind, h.1, hRest⟩

/-- More behind a text in which a raw element opens does not change that. -/
theorem substitute_raw_append {rest : List Char} {name : String} (h : Ended ('<' :: rest))
    (hName : rawOpened? rest = some name) (bag : Bag) (more : List Char) :
    substitute bag ('<' :: rest ++ more) = '<' :: keepRaw bag name (rest ++ more) := by
  have hRest := h.suffix (List.suffix_cons _ rest)
  exact substitute_raw ((rawOpened?_append hRest (h.tail_ne_nil (.inr rfl)) more).trans hName)

/-- What is left of a text is told by where substitution is at its end. -/
theorem exists_left {text : List Char} (h : Ended text) :
    ∃ left, Left left (amid text) ∧ DoneBut text left := by
  fun_induction amid text with
  | case1 => exact ⟨[], .nothing, doneBut_self []⟩
  | case2 c rest hAt inner after hInner ih =>
      obtain ⟨behind, rfl, rfl⟩ := exists_of_atReference hAt
      rw [List.drop_one, List.tail_cons] at hInner
      obtain ⟨hText, -, -⟩ := referenceInner?_eq_some_iff.mp hInner
      have hSuffix : after <:+ '@' :: '(' :: behind :=
        ⟨'@' :: '(' :: (inner ++ [')']), by simp [hText]⟩
      obtain ⟨left, hLeft, hDone⟩ := ih (h.suffix hSuffix)
      exact ⟨left, hLeft, hDone.step (fun bag => shield (resolveReference bag inner).toList)
        fun bag more => substitute_reference bag (referenceInner?_append hInner)⟩
  | case3 c rest hAt hNone hLine ih =>
      obtain ⟨behind, rfl, rfl⟩ := exists_of_atReference hAt
      rw [List.drop_one, List.tail_cons] at hNone
      have hLater : '\n' ∈ behind := by simpa using hLine
      obtain ⟨left, hLeft, hDone⟩ := ih (h.suffix (List.suffix_cons _ _))
      exact ⟨left, hLeft, hDone.step (fun _ => ['@']) fun bag more =>
        substitute_unclosed (referenceInner?_append_eq_none hLater hNone)⟩
  | case4 c rest hAt hNone hLine =>
      obtain ⟨behind, rfl, rfl⟩ := exists_of_atReference hAt
      rw [List.drop_one, List.tail_cons] at hNone
      have hLater : '\n' ∉ behind := by simpa using hLine
      have hClosing : ')' ∉ behind := by
        intro hMem
        obtain ⟨inner, after, rfl, hFirst⟩ := List.eq_append_cons_of_mem hMem
        have hInner : '\n' ∉ inner := fun hMem => hLater (List.mem_append_left _ hMem)
        cases hNone.symm.trans (referenceInner?_eq_some_iff.mpr ⟨rfl, hFirst, hInner⟩)
      exact ⟨_, .reference hClosing hLater, doneBut_self _⟩
  | case5 rest name hName hClosed _ ih =>
      have hRest := h.suffix (List.suffix_cons _ rest)
      obtain ⟨left, hLeft, hDone⟩ := ih (hRest.suffix (List.drop_suffix _ rest))
      refine ⟨left, hLeft, hDone.step (fun _ => '<' :: rest.take (rawLength name rest)) ?_⟩
      intro bag more
      rw [substitute_raw_append h hName,
        keepRaw_append_of_closed hRest (mem_rawElements hName) hClosed, List.cons_append]
  | case6 rest name hName hOpen hContent =>
      refine ⟨_, .raw (mem_rawElements hName) fun bag more => ?_, doneBut_self _⟩
      have hRest := h.suffix (List.suffix_cons _ rest)
      rw [substitute_raw_append h hName,
        keepRaw_append_of_open hRest (mem_rawElements hName) hContent, List.cons_append]
  | case7 rest name hName hOpen hContent =>
      refine ⟨_, .closing fun bag more => ?_, doneBut_self _⟩
      have hRest := h.suffix (List.suffix_cons _ rest)
      rw [substitute_raw_append h hName,
        keepRaw_append_of_closing hRest (mem_rawElements hName) (Nat.lt_of_not_le hOpen) hContent,
        List.cons_append]
  | case8 rest hName _ ih =>
      have hRest := h.suffix (List.suffix_cons _ rest)
      obtain ⟨left, hLeft, hDone⟩ := ih hRest
      exact ⟨left, hLeft, hDone.step (fun _ => ['<']) fun bag more => substitute_tag
        ((rawOpened?_append hRest (h.tail_ne_nil (.inr rfl)) more).trans hName)⟩
  | case9 c rest hAt hTag ih =>
      simp only [Bool.and_eq_true, decide_eq_true_eq] at hAt
      obtain ⟨left, hLeft, hDone⟩ := ih (h.suffix (List.suffix_cons _ rest))
      refine ⟨left, hLeft, hDone.step (fun _ => [c]) fun bag more => substitute_other ?_ hTag⟩
      rintro ⟨rfl, hHead⟩
      obtain ⟨d, tail, rfl⟩ := List.exists_cons_of_ne_nil (h.tail_ne_nil (.inl rfl))
      exact hAt ⟨rfl, hHead⟩

theorem keepRaw_nil (bag : Bag) (name : String) : keepRaw bag name [] = [] := by
  simp [keepRaw, substitute_nil]

theorem keepTag_nil (bag : Bag) : keepTag bag [] = [] := by
  simp [keepTag, substitute_nil]

/-- What substitution makes of a text that follows, where it does not go back for that. -/
def Amid.resume? (bag : Bag) (more : List Char) : Amid → Option (List Char)
  | .nothing => some (substitute bag more)
  | .raw name => some (keepRaw bag name more)
  | .closing => some (keepTag bag more)
  | .reference => none

theorem Left.resume {bag : Bag} {left more later : List Char} {state : Amid}
    (h : Left left state) (hResume : state.resume? bag more = some later) :
    substitute bag (left ++ more) = substitute bag left ++ later := by
  cases h with
  | nothing =>
      cases hResume
      rw [substitute_nil]
      rfl
  | reference => cases hResume
  | raw hName hKeep =>
      cases hResume
      have hAlone := hKeep bag []
      rw [keepRaw_nil, List.append_nil] at hAlone
      rw [hKeep, hAlone]
  | closing hKeep =>
      cases hResume
      have hAlone := hKeep bag []
      rw [keepTag_nil, List.append_nil] at hAlone
      rw [hKeep, hAlone]

theorem DoneBut.append_iff {bag : Bag} {text left more later : List Char}
    (h : DoneBut text left) :
    substitute bag (text ++ more) = substitute bag text ++ later ↔
      substitute bag (left ++ more) = substitute bag left ++ later := by
  obtain ⟨done, hDone⟩ := h
  have hText := hDone bag []
  rw [List.append_nil, List.append_nil] at hText
  rw [hDone, hText, List.append_assoc, List.append_cancel_left_eq]

/-- Substitution goes on where it is at the end of a text. -/
theorem substitute_append {bag : Bag} {text more later : List Char} (h : Ended text)
    (hResume : (amid text).resume? bag more = some later) :
    substitute bag (text ++ more) = substitute bag text ++ later := by
  obtain ⟨left, hLeft, hDone⟩ := exists_left h
  exact hDone.append_iff.mpr (hLeft.resume hResume)

/-- An open reference is closed by what follows, and nothing is as before then. -/
theorem exists_reference_closed {inner front : List Char} (hOpen : ')' ∉ inner)
    (hClosing : ')' ∉ front) (hOpenLine : '\n' ∉ inner) (hLine : '\n' ∉ front)
    (behind : List Char) (later : Bag → List Char) :
    ∃ bag, substitute bag ('@' :: '(' :: inner ++ (front ++ ')' :: behind)) ≠
      substitute bag ('@' :: '(' :: inner) ++ later bag := by
  obtain ⟨bag, -, hResolved⟩ :=
    exists_resolveReference (inner ++ front) "z" (by decide) (by decide)
  have hNone : referenceInner? inner = none := by
    rw [Option.eq_none_iff_forall_ne_some]
    rintro ⟨part, after⟩ hFound
    obtain ⟨rfl, -, -⟩ := referenceInner?_eq_some_iff.mp hFound
    exact hOpen (List.mem_append_right _ List.mem_cons_self)
  have hFound : referenceInner? (inner ++ (front ++ ')' :: behind)) =
      some (inner ++ front, behind) :=
    referenceInner?_eq_some_iff.mpr ⟨by simp, by simp [hOpen, hClosing], by simp [hOpenLine, hLine]⟩
  have hValue : substitute bag ('@' :: '(' :: inner ++ (front ++ ')' :: behind)) =
      'z' :: substitute bag behind :=
    calc substitute bag ('@' :: '(' :: (inner ++ (front ++ ')' :: behind)))
      _ = shield (resolveReference bag (inner ++ front)).toList ++ substitute bag behind :=
        substitute_reference bag hFound
      _ = 'z' :: substitute bag behind := by
        rw [hResolved]
        rfl
  refine ⟨bag, ?_⟩
  rw [hValue, substitute_unclosed hNone]
  exact fun hSame => absurd (List.cons.inj hSame).1 (by decide)

theorem Left.mem_rawElements {left : List Char} {name : String} (h : Left left (.raw name)) :
    name ∈ rawElements := by
  cases h with
  | raw hName _ => exact hName

/-- If one text is substituted by itself, and what follows in some way that may depend on the
parameters, then in that way it is gone on with. -/
theorem resume?_of_append {text front behind : List Char} (h : Ended text) (hClosing : ')' ∉ front)
    (hLine : '\n' ∉ front) {later : Bag → List Char}
    (hAll : ∀ bag, substitute bag (text ++ (front ++ ')' :: behind)) =
      substitute bag text ++ later bag) (bag : Bag) :
    (amid text).resume? bag (front ++ ')' :: behind) = some (later bag) := by
  obtain ⟨left, hLeft, hDone⟩ := exists_left h
  generalize amid text = state at hLeft
  have hFound : state ≠ .reference := by
    rintro rfl
    cases hLeft with
    | reference hOpen hOpenLine =>
        obtain ⟨bag, hOther⟩ :=
          exists_reference_closed hOpen hClosing hOpenLine hLine behind later
        exact hOther (hDone.append_iff.mp (hAll bag))
  have hSame := hDone.append_iff.mp (hAll bag)
  cases hResume : state.resume? bag (front ++ ')' :: behind) with
  | none => cases state <;> first | exact absurd rfl hFound | cases hResume
  | some other =>
      rw [hLeft.resume hResume] at hSame
      rw [List.append_cancel_left hSame]

/-- Inside of a raw element the next character is kept. -/
theorem head?_keepRaw (bag : Bag) (name : String) (c : Char) (rest : List Char) :
    (keepRaw bag name (c :: rest)).head? = some c := by
  unfold keepRaw rawLength
  rw [List.take_succ_cons]
  rfl

theorem head?_keepTag (bag : Bag) (c : Char) (rest : List Char) :
    (keepTag bag (c :: rest)).head? = some c := by
  unfold keepTag
  rw [List.take_succ_cons]
  rfl

/-- Substitution that replaces a reference is in the midst of nothing. -/
theorem Amid.eq_nothing_of_resume? {bag : Bag} {rest later : List Char} {state : Amid}
    (h : state.resume? bag ('@' :: rest) = some later) (hLater : later.head? ≠ some '@') :
    state = .nothing := by
  cases state with
  | nothing => rfl
  | reference => cases h
  | raw name =>
      cases h
      exact absurd (head?_keepRaw bag name '@' rest) hLater
  | closing =>
      cases h
      exact absurd (head?_keepTag bag '@' rest) hLater

end HtmlTemplate
