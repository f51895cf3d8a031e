import HtmlTemplate.Proofs.Markup.Phrases

/-! Where substitution and the scanner agree. Substitution goes over the text of markup without
knowing its tokens. It replaces the references that the scanner finds, and keeps the content of
the raw elements that the scanner finds, if behind each tag and each reference it is where the
scanner is. -/
namespace HtmlTemplate

open Source

/-- What a token comes to outside of raw elements. A reference within one line and without
parentheses inside comes to its value. -/
def Token.filled (bag : Bag) (t : Token) : List Char :=
  match t.kind, referenceInner? (t.value.toList.drop 2) with
  | .reference, some (inner, []) => shield (resolveReference bag inner).toList
  | _, _ => substitute bag t.value.toList

/-- What tokens come to one by one. In a raw element they are kept up to the tag that closes
it. -/
def filled (bag : Bag) : (raw : Bool) → List Token → List Char
  | _, [] => []
  | true, t :: rest => t.value.toList ++ filled bag (t.kind ≠ .closingTag) rest
  | false, t :: rest =>
    t.filled bag ++ filled bag (rawBehind? t.kind t.value.toList).isSome rest

/-- Behind a tag or a reference, substitution is where the scanner is. -/
def Follows (text : List Char) : Prop :=
  amid text = (rawBehind? (classifyTag text) text).elim .nothing .raw

instance (text : List Char) : Decidable (Follows text) :=
  inferInstanceAs (Decidable (_ = _))

section

variable {bag : Bag} {t : Token} {text behind content : List Char} {name : String}
  {tokens rest : List Token}

theorem Token.filled_eq (h : t.kind = .reference → IsReference t.value.toList) :
    t.filled bag = substitute bag t.value.toList := by
  unfold filled
  split
  · next inner hKind hInner =>
    obtain ⟨taken, hText, -⟩ := h hKind
    rw [hText] at hInner ⊢
    have hReference : referenceInner? taken = some (inner, []) := hInner
    rw [substitute_reference bag hReference, substitute_nil, List.append_nil]
  · rfl

theorem substitute_append_of_not_mem (hAt : '@' ∉ text) (hTag : '<' ∉ text) (more : List Char) :
    substitute bag (text ++ more) = text ++ substitute bag more := by
  induction text with
  | nil => rfl
  | cons c text ih =>
      obtain ⟨hFirst, hAt⟩ := List.ne_and_not_mem_of_not_mem_cons hAt
      obtain ⟨hOther, hTag⟩ := List.ne_and_not_mem_of_not_mem_cons hTag
      rw [List.cons_append, substitute_other (fun hSame => hFirst hSame.1.symm) hOther.symm,
        ih hAt hTag, List.cons_append]

theorem rawBehind?_reference (kind : TokenKind) (rest : List Char) :
    rawBehind? kind ('@' :: '(' :: rest) = none := by
  have hName : isRawElement (String.ofList []) = false := by decide +kernel
  exact if_neg fun hBoth => Bool.false_ne_true (hName.symm.trans hBoth.2)

theorem ended_of_isReference (h : IsReference text) : Ended text := by
  obtain ⟨taken, rfl, hTaken⟩ := h
  exact .inr (.inr ((enclosed?_last hTaken).trans ⟨['@', '('], rfl⟩))

theorem ended_tag (inner : List Char) : Ended ('<' :: (inner ++ ['>'])) :=
  .inr (.inl (List.suffix_append ('<' :: inner) ['>']))

theorem mem_rawElements_of_rawBehind? {kind : TokenKind} (h : rawBehind? kind text = some name) :
    name ∈ rawElements := by
  unfold rawBehind? at h
  dsimp only at h
  split at h
  · next hBoth =>
    rw [isRawElement, map_toLower_ofList, Option.some.inj h] at hBoth
    simpa using hBoth.2
  · cases h

/-- The content of a raw element ends with the text, or in front of a tag that closes something. -/
theorem begins_of_rawContent (h : rawContent name (content ++ behind) = content) :
    behind = [] ∨ ['<', '/'] <+: behind := by
  induction content with
  | nil =>
      cases behind with
      | nil => exact .inl rfl
      | cons c rest =>
          unfold rawContent at h
          rw [List.nil_append, beforeClosing] at h
          split at h
          · next hFound =>
            obtain ⟨more, hText⟩ := dropPrefixIgnoringCase?_isSome.mp hFound
            cases rest with
            | nil => exact absurd (List.cons.inj hText).2 (List.cons_ne_nil _ _)
            | cons d rest =>
                obtain ⟨hFirst, hSecond⟩ := List.cons.inj hText
                have hOpens : c = '<' := (toLower_eq_iff (by decide)).mp hFirst.symm
                have hSlash : d = '/' :=
                  (toLower_eq_iff (by decide)).mp (List.cons.inj hSecond).1.symm
                exact .inr ⟨rest, by rw [hOpens, hSlash]; rfl⟩
          · cases h
  | cons c content ih =>
      unfold rawContent at h ih
      rw [List.cons_append, beforeClosing] at h
      split at h
      · cases h
      · exact ih (List.cons.inj h).2

theorem keepRaw_content (h : rawContent name (content ++ behind) = content) :
    keepRaw bag name (content ++ behind) = content ++ keepTag bag behind := by
  unfold keepRaw keepTag rawLength
  rw [h, List.drop_left, Nat.add_assoc, List.take_length_add_append, List.drop_length_add_append,
    List.append_assoc]

theorem keepTag_tag {inner : List Char} (hText : text = '<' :: (inner ++ ['>']))
    (hInner : '>' ∉ inner) : keepTag bag (text ++ behind) = text ++ substitute bag behind := by
  have hPass : ∀ c ∈ '<' :: inner, decide (c ≠ '>') = true := by
    intro c hMem
    rw [decide_eq_true_eq]
    rintro rfl
    rcases List.mem_cons.mp hMem with hFirst | hLater
    · exact absurd hFirst (by decide)
    · exact hInner hLater
  have hTag : (text ++ behind).takeWhile (· ≠ '>') = '<' :: inner := by
    rw [hText, ← List.cons_append, List.append_assoc, List.takeWhile_append_of_pos hPass]
    simp
  have hLength : ('<' :: inner).length + 1 = text.length := by
    rw [hText]
    simp
  unfold keepTag
  rw [hTag, hLength, List.take_left, List.drop_left]

/-- A tag that a text like a closing tag begins with is one. -/
theorem classifyTag_of_begins {inner : List Char} (hText : text = '<' :: (inner ++ ['>']))
    (h : ['<', '/'] <+: text ++ behind) : classifyTag text = .closingTag := by
  subst hText
  cases inner with
  | nil =>
      obtain ⟨more, hMore⟩ := h
      exact absurd (List.cons.inj (List.cons.inj hMore).2).1 (by decide)
  | cons c inner =>
      obtain ⟨more, hMore⟩ := h
      obtain rfl : '/' = c := (List.cons.inj (List.cons.inj hMore).2).1
      rfl

end

/-! References and tags that substitution follows in any case. -/

/-- A reference within one line that has no parentheses inside. -/
def IsSimple (text : List Char) : Prop :=
  ∃ inner, text = '@' :: '(' :: (inner ++ [')']) ∧ ')' ∉ inner ∧ '\n' ∉ inner

theorem follows_of_isSimple {text : List Char} (h : IsSimple text) : Follows text := by
  obtain ⟨inner, rfl, hClosing, hLine⟩ := h
  have hInner : referenceInner? (inner ++ [')']) = some (inner, []) :=
    referenceInner?_eq_some_iff.mpr ⟨rfl, hClosing, hLine⟩
  have hAmid : amid ('@' :: '(' :: (inner ++ [')'])) = .nothing := by
    rw [amid.eq_def]
    simp only [List.head?_cons, decide_true, Bool.and_self, if_true]
    split
    · next hFound =>
      cases hFound.symm.trans hInner
      rw [amid.eq_def]
    · next hNone => cases hNone.symm.trans hInner
  rw [Follows, hAmid, rawBehind?_reference]
  rfl

theorem amid_of_not_mem {text : List Char} (hAt : '@' ∉ text) (hTag : '<' ∉ text) :
    amid text = .nothing := by
  induction text with
  | nil => rw [amid.eq_def]
  | cons c text ih =>
      obtain ⟨hFirst, hAt⟩ := List.ne_and_not_mem_of_not_mem_cons hAt
      obtain ⟨hOther, hTag⟩ := List.ne_and_not_mem_of_not_mem_cons hTag
      rw [amid.eq_def]
      simp only [hFirst.symm, hOther.symm, decide_false, Bool.false_and, Bool.false_eq_true,
        if_false]
      exact ih hAt hTag

theorem follows_of_closed? {text name : List Char} (h : closed? text = some name) :
    Follows text := by
  have hKind := (closed?_eq_some_iff.mp h).1
  obtain ⟨rest, rfl, hTag, hAt⟩ := not_mem_of_closed? h
  have hOpened : rawOpened? ('/' :: rest) = none := rfl
  have hLater : amid ('/' :: rest) = .nothing :=
    amid_of_not_mem (by simp [hAt]) (by simp [hTag])
  have hAmid : amid ('<' :: '/' :: rest) = .nothing := by
    rw [amid.eq_def]
    simp [hOpened, hLater]
  rw [Follows, hKind, rawBehind?_of_kind TokenKind.noConfusion, hAmid]
  rfl

/-- Substitution in front of what follows a phrase. -/
theorem Phrase.substitute_eq {behind : List Char} {found : List Token}
    (h : Phrase behind found) (hFollows : ∀ t ∈ found, t.kind = .reference ∨
      t.kind = classifyTag t.value.toList → Follows t.value.toList) (bag : Bag) :
    (∃ t, found = [t] ∧ rawBehind? t.kind t.value.toList = none ∧
      substitute bag (valuesText found ++ behind) = t.filled bag ++ substitute bag behind) ∨
    ∃ t content, found = t :: content ∧ (rawBehind? t.kind t.value.toList).isSome = true ∧
      (∀ u ∈ content, u.kind ≠ .closingTag) ∧ (behind = [] ∨ ['<', '/'] <+: behind) ∧
      substitute bag (valuesText found ++ behind) =
        t.filled bag ++ (valuesText content ++ keepTag bag behind) := by
  cases h with
  | @plain t hKind hSome hAt hTag hRaw =>
      refine .inl ⟨t, rfl, hRaw, ?_⟩
      have hAlone : substitute bag t.value.toList = t.value.toList :=
        substitute_of_not_mem bag hAt
      rw [Token.filled_eq fun hReference => absurd hReference hKind, hAlone, valuesText_single,
        substitute_append_of_not_mem hAt hTag]
  | @sigil t hKind hValue hBehind hRaw =>
      refine .inl ⟨t, rfl, hRaw, ?_⟩
      have hAlone : substitute bag ['@'] = ['@'] := by
        rw [substitute_other (by decide) (by decide), substitute_nil]
      rw [Token.filled_eq fun hReference => absurd hReference hKind, valuesText_single, hValue,
        hAlone, List.singleton_append, substitute_other (fun hBoth => hBehind hBoth.2) (by decide)]
      rfl
  | @reference t hKind hText =>
      have hRaw (kind : TokenKind) : rawBehind? kind t.value.toList = none := by
        obtain ⟨taken, hValue, -⟩ := hText
        rw [hValue, rawBehind?_reference]
      have hAmid : amid t.value.toList = .nothing := by
        rw [hFollows t List.mem_cons_self (.inl hKind), hRaw]
        rfl
      refine .inl ⟨t, rfl, hRaw _, ?_⟩
      rw [Token.filled_eq fun _ => hText, valuesText_single,
        substitute_append (ended_of_isReference hText) (by rw [hAmid]; rfl)]
  | @tag t inner hValue hInner hKind hRaw =>
      have hAmid : amid t.value.toList = .nothing := by
        rw [hFollows t List.mem_cons_self (.inr hKind), ← hKind, hRaw]
        rfl
      refine .inl ⟨t, rfl, hRaw, ?_⟩
      have hOther : t.kind ≠ .reference := hKind ▸ classifyTag_ne_reference _
      rw [Token.filled_eq fun hReference => absurd hReference hOther, valuesText_single,
        substitute_append (hValue ▸ ended_tag inner) (by rw [hAmid]; rfl)]
  | @raw t inner name content hValue hInner hKind hRaw hText hContent =>
      have hAmid : amid t.value.toList = .raw name := by
        rw [hFollows t List.mem_cons_self (.inr hKind), ← hKind, hRaw]
        rfl
      have hOther : t.kind ≠ .reference := hKind ▸ classifyTag_ne_reference _
      refine .inr ⟨t, content, rfl, by rw [hRaw]; rfl, ?_, begins_of_rawContent hContent, ?_⟩
      · rcases hText with rfl | ⟨u, rfl, hTextKind⟩
        · exact List.forall_mem_nil _
        · rw [List.forall_mem_singleton, hTextKind]
          exact TokenKind.noConfusion
      · rw [Token.filled_eq fun hReference => absurd hReference hOther, valuesText_cons,
          List.append_assoc, substitute_append (hValue ▸ ended_tag inner) (by rw [hAmid]; rfl),
          keepRaw_content hContent]

theorem Phrase.valuesText_ne_nil {behind : List Char} {found : List Token}
    (h : Phrase behind found) : valuesText found ≠ [] := by
  cases h with
  | plain hKind hSome hAt hTag hRaw => rwa [valuesText_single]
  | sigil hKind hValue hBehind hRaw => simp [valuesText_single, hValue]
  | reference hKind hText =>
      obtain ⟨taken, hValue, -⟩ := hText
      simp [valuesText_single, hValue]
  | tag hValue hInner hKind hRaw => simp [valuesText_single, hValue]
  | raw hValue hInner hKind hRaw hText hContent => simp [valuesText_cons, hValue]

/-- In a raw element, markup that begins with a closing tag is kept up to its end. -/
theorem Phrase.keepTag_eq {behind : List Char} {found : List Token} (h : Phrase behind found)
    (hBegins : ['<', '/'] <+: valuesText found ++ behind) (bag : Bag) :
    ∃ t, found = [t] ∧ t.kind = .closingTag ∧
      keepTag bag (valuesText found ++ behind) = t.value.toList ++ substitute bag behind := by
  have hFirst {t : Token} {c : Char} {rest : List Char} (hValue : t.value.toList = c :: rest)
      (hFound : ['<', '/'] <+: valuesText [t] ++ behind) : '<' = c := by
    rw [valuesText_single, hValue] at hFound
    exact (List.cons_prefix_cons.mp hFound).1
  cases h with
  | @plain t hKind hSome hAt hTag hRaw =>
      obtain ⟨c, rest, hValue⟩ := List.exists_cons_of_ne_nil hSome
      obtain rfl := hFirst hValue hBegins
      rw [hValue] at hTag
      exact absurd List.mem_cons_self hTag
  | @sigil t hKind hValue hBehind hRaw => exact absurd (hFirst hValue hBegins) (by decide)
  | @reference t hKind hReference =>
      obtain ⟨taken, hValue, -⟩ := hReference
      exact absurd (hFirst hValue hBegins) (by decide)
  | @tag t inner hValue hInner hKind hRaw =>
      rw [valuesText_single] at hBegins ⊢
      exact ⟨t, rfl, hKind.trans (classifyTag_of_begins hValue hBegins), keepTag_tag hValue hInner⟩
  | @raw t inner name content hValue hInner hKind hRaw hText hContent =>
      rw [valuesText_cons, List.append_assoc] at hBegins
      have hClosing := hKind.trans (classifyTag_of_begins hValue hBegins)
      rw [hClosing, rawBehind?_of_kind TokenKind.noConfusion] at hRaw
      cases hRaw

theorem filled_append_of_raw {content : List Token} (h : ∀ u ∈ content, u.kind ≠ .closingTag)
    (bag : Bag) (rest : List Token) :
    filled bag true (content ++ rest) = valuesText content ++ filled bag true rest := by
  induction content with
  | nil => rfl
  | cons u content ih =>
      obtain ⟨hFirst, hRest⟩ := List.forall_mem_cons.mp h
      rw [List.cons_append, filled, decide_eq_true hFirst, ih hRest, valuesText_cons,
        List.append_assoc]

/-- Where substitution follows the scanner, markup comes to what its tokens come to one by one. -/
theorem Phrased.substitute_eq {text : List Char} {tokens : List Token} (h : Phrased text tokens)
    (hFollows : ∀ t ∈ tokens, t.kind = .reference ∨ t.kind = classifyTag t.value.toList →
      Follows t.value.toList) (bag : Bag) :
    substitute bag text = filled bag false tokens ∧
      (text = [] ∨ ['<', '/'] <+: text → keepTag bag text = filled bag true tokens) := by
  -- the second part is for what stands behind the content of a raw element
  induction h with
  | nil => exact ⟨substitute_nil bag, fun _ => keepTag_nil bag⟩
  | @cons found rest behind hFound hRest ih =>
      obtain ⟨hHere, hLater⟩ := List.forall_mem_append.mp hFollows
      obtain ⟨hOutside, hInside⟩ := ih hLater
      constructor
      · rcases hFound.substitute_eq hHere bag with ⟨t, rfl, hRaw, hText⟩ |
          ⟨t, content, rfl, hRaw, hContent, hBegins, hText⟩
        · rw [hText, hOutside, List.singleton_append, filled, hRaw]
          rfl
        · rw [hText, hInside hBegins, List.cons_append, filled, hRaw, filled_append_of_raw hContent]
      · rintro (hNone | hBegins)
        · exact absurd (List.append_eq_nil_iff.mp hNone).1 hFound.valuesText_ne_nil
        · obtain ⟨t, rfl, hKind, hText⟩ := hFound.keepTag_eq hBegins bag
          rw [hText, hOutside, List.singleton_append, filled, hKind]
          rfl

end HtmlTemplate
