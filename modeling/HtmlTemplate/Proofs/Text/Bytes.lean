import HtmlTemplate.Proofs.Assets.Place

/-! Searching a text among characters and searching it among bytes. A character is encoded in
one to four bytes, of which the first looks like no other; so one text stands in the bytes of
another only where it stands among its characters, and a search over the bytes finds the
same place. -/
namespace HtmlTemplate.Text

/-- Where one sequence first stands in another. -/
structure FirstAt {α : Type} (part text : List α) (place : Nat) : Prop where
  here : part <+: text.drop place
  first : ∀ earlier < place, ¬ part <+: text.drop earlier

theorem FirstAt.unique {α : Type} {part text : List α} {place other : Nat}
    (h : FirstAt part text place) (hOther : FirstAt part text other) : place = other := by
  rcases Nat.lt_trichotomy place other with hLess | hSame | hMore
  · exact absurd h.here (hOther.first place hLess)
  · exact hSame
  · exact absurd hOther.here (h.first other hMore)

section

variable {part text : List Char} {k : Nat}

/-- What a search answers is the first place. -/
theorem firstAt_of_find? (h : find? part text = some k) : FirstAt part text k := by
  obtain ⟨⟨before, after⟩, hFound, rfl⟩ := Option.map_eq_some_iff.mp h
  have hFirst := firstPart_of_splitFirst? hFound
  constructor
  · exact ⟨after, by rw [hFirst.eq, List.append_assoc, List.drop_left]⟩
  · rintro earlier hLess ⟨behind, hEarlier⟩
    dsimp only at hLess
    have hText : text = text.take earlier ++ part ++ behind := by
      rw [List.append_assoc, hEarlier, List.take_append_drop]
    have hLe := hFirst.first _ _ _ hText rfl
    have hTake := List.length_take_le earlier text
    omega

theorem isPrefix_drop_iff_infix : (∃ place, part <+: text.drop place) ↔ part <:+: text := by
  constructor
  · rintro ⟨place, hHere⟩
    exact hHere.isInfix.trans (List.drop_suffix place text).isInfix
  · rintro ⟨before, behind, rfl⟩
    exact ⟨before.length, behind, by rw [List.append_assoc, List.drop_left]⟩

/-- There is an answer if there is any such place. -/
theorem find?_ne_none (h : part <+: text.drop k) : find? part text ≠ none := by
  intro hNone
  obtain ⟨before, behind, hText⟩ := isPrefix_drop_iff_infix.mp ⟨k, h⟩
  exact not_hasPart_of_splitFirst? (Option.map_eq_none_iff.mp hNone)
    ⟨before, part, behind, hText.symm, rfl⟩

theorem find?_eq_some_iff : find? part text = some k ↔ FirstAt part text k := by
  refine ⟨firstAt_of_find?, fun h => ?_⟩
  obtain ⟨found, hFound⟩ := Option.ne_none_iff_exists'.mp (find?_ne_none h.here)
  rw [hFound, (firstAt_of_find? hFound).unique h]

end

/-- The bytes of a text in UTF-8. -/
def bytes (text : List Char) : List UInt8 :=
  text.flatMap String.utf8EncodeChar

section

variable {part text : List Char} {c d : Char} {rest behind : List UInt8} {k place : Nat}

@[simp] theorem bytes_nil : bytes [] = [] := rfl

@[simp] theorem bytes_cons (c : Char) (text : List Char) :
    bytes (c :: text) = String.utf8EncodeChar c ++ bytes text := rfl

@[simp] theorem bytes_append (text behind : List Char) :
    bytes (text ++ behind) = bytes text ++ bytes behind :=
  List.flatMap_append

theorem utf8EncodeChar_append_inj
    (h : String.utf8EncodeChar c ++ rest = String.utf8EncodeChar d ++ behind) : c = d := by
  have hDecode := congrArg (fun bytes : List UInt8 => bytes.toByteArray.utf8DecodeChar? 0) h
  simp only [List.toByteArray_append, ByteArray.utf8DecodeChar?_utf8EncodeChar_append,
    Option.some.injEq] at hDecode
  exact hDecode

/-- A text stands in front of another in bytes only if it does in characters. -/
theorem bytes_isPrefix_iff : bytes part <+: bytes text ↔ part <+: text := by
  constructor
  · intro h
    induction part generalizing text with
    | nil => exact List.nil_prefix
    | cons c part ih =>
        obtain ⟨behind, hText⟩ := h
        cases text with
        | nil =>
            have hNil := (List.append_eq_nil_iff.mp hText).1
            exact absurd (List.append_eq_nil_iff.mp hNil).1 String.utf8EncodeChar_ne_nil
        | cons d text =>
            rw [bytes_cons, bytes_cons, List.append_assoc] at hText
            obtain rfl := utf8EncodeChar_append_inj hText
            exact List.cons_prefix_cons.mpr ⟨rfl, ih ⟨behind, List.append_cancel_left hText⟩⟩
  · rintro ⟨behind, rfl⟩
    exact ⟨bytes behind, (bytes_append part behind).symm⟩

theorem drop_bytes_take (text : List Char) (k : Nat) :
    (bytes text).drop (bytes (text.take k)).length = bytes (text.drop k) := by
  have hText := bytes_append (text.take k) (text.drop k)
  rw [List.take_append_drop] at hText
  rw [hText, List.drop_left]

/-- A text that is not empty stands among the bytes of another only between characters. -/
theorem exists_take_of_isPrefix (hSome : part ≠ []) (h : bytes part <+: (bytes text).drop place) :
    ∃ k ≤ text.length, place = (bytes (text.take k)).length := by
  obtain ⟨first, part, rfl⟩ := List.exists_cons_of_ne_nil hSome
  induction text generalizing place with
  | nil =>
      rw [bytes_nil, List.drop_nil, List.prefix_nil, bytes_cons] at h
      exact absurd (List.append_eq_nil_iff.mp h).1 String.utf8EncodeChar_ne_nil
  | cons c text ih =>
      by_cases hInside : place < (String.utf8EncodeChar c).length
      · -- the byte at the place begins a character, and only the first byte of one does
        refine ⟨0, Nat.zero_le _, ?_⟩
        rw [List.take_zero, bytes_nil, List.length_nil]
        have hFirst : 0 < (String.utf8EncodeChar first).length :=
          List.length_pos_iff.mpr String.utf8EncodeChar_ne_nil
        obtain ⟨behind, hText⟩ := h
        have hByte := congrArg (·[0]?) hText
        simp only [bytes_cons, List.append_assoc, List.getElem?_drop, Nat.add_zero,
          List.getElem?_append_left hFirst, List.getElem?_append_left hInside,
          List.getElem?_eq_getElem hFirst, List.getElem?_eq_getElem hInside,
          Option.some.injEq] at hByte
        have hBegins : (String.utf8EncodeChar c)[place].IsUTF8FirstByte := by
          rw [← hByte]
          exact UInt8.isUTF8FirstByte_getElem_zero_utf8EncodeChar
        exact UInt8.isUTF8FirstByte_getElem_utf8EncodeChar.mp hBegins
      · have hLe := Nat.le_of_not_lt hInside
        rw [bytes_cons c, List.drop_append, List.drop_eq_nil_of_le hLe, List.nil_append] at h
        obtain ⟨k, hK, hPlace⟩ := ih h
        refine ⟨k + 1, Nat.succ_le_succ hK, ?_⟩
        rw [List.take_succ_cons, bytes_cons, List.length_append]
        omega

theorem length_bytes_take_lt (h : k < place) (hPlace : place ≤ text.length) :
    (bytes (text.take k)).length < (bytes (text.take place)).length := by
  have hTake : text.take place = text.take k ++ (text.drop k).take (place - k) := by
    rw [← List.take_add, Nat.add_sub_cancel' (Nat.le_of_lt h)]
  obtain ⟨c, others, hCons⟩ := List.exists_cons_of_length_pos
    (l := (text.drop k).take (place - k)) (by simp; omega)
  have hBytes := List.length_pos_iff.mpr (String.utf8EncodeChar_ne_nil (c := c))
  rw [hTake, hCons, bytes_append, bytes_cons, List.length_append, List.length_append]
  omega

theorem firstAt_nil_iff {α : Type} {text : List α} {place : Nat} :
    FirstAt [] text place ↔ place = 0 := by
  constructor
  · intro h
    exact Nat.eq_zero_of_not_pos fun hPos => h.first 0 hPos List.nil_prefix
  · rintro rfl
    exact ⟨List.nil_prefix, nofun⟩

/-- A search over the bytes comes to the bytes of the characters in front of the part, and so
to their number. -/
theorem firstAt_bytes_iff : FirstAt (bytes part) (bytes text) place ↔
    ∃ k ≤ text.length, FirstAt part text k ∧ place = (bytes (text.take k)).length := by
  by_cases hSome : part = []
  · subst hSome
    rw [bytes_nil, firstAt_nil_iff]
    constructor
    · rintro rfl
      exact ⟨0, Nat.zero_le _, firstAt_nil_iff.mpr rfl, rfl⟩
    · rintro ⟨k, -, hFirst, rfl⟩
      rw [firstAt_nil_iff.mp hFirst]
      rfl
  · constructor
    · intro h
      obtain ⟨k, hK, rfl⟩ := exists_take_of_isPrefix hSome h.here
      refine ⟨k, hK, ⟨?_, fun earlier hLess hEarlier => ?_⟩, rfl⟩
      · have hHere := h.here
        rwa [drop_bytes_take, bytes_isPrefix_iff] at hHere
      · refine h.first _ (length_bytes_take_lt hLess hK) ?_
        rwa [drop_bytes_take, bytes_isPrefix_iff]
    · rintro ⟨k, hK, h, rfl⟩
      refine ⟨?_, fun earlier hLess hEarlier => ?_⟩
      · rw [drop_bytes_take, bytes_isPrefix_iff]
        exact h.here
      · obtain ⟨n, hN, rfl⟩ := exists_take_of_isPrefix hSome hEarlier
        rw [drop_bytes_take, bytes_isPrefix_iff] at hEarlier
        refine h.first n (Nat.lt_of_not_le fun hLe => ?_) hEarlier
        rcases Nat.eq_or_lt_of_le hLe with rfl | hMore
        · exact Nat.lt_irrefl _ hLess
        · exact Nat.lt_asymm hLess (length_bytes_take_lt hMore hN)

theorem FirstAt.le_length (h : FirstAt part text k) : k ≤ text.length := by
  refine Nat.le_of_not_lt fun hMore => ?_
  -- past the end there is only an empty part, which stands in front of all
  have hPart := h.here
  rw [List.drop_eq_nil_of_le (by omega), List.prefix_nil] at hPart
  subst hPart
  have hZero := firstAt_nil_iff.mp h
  omega

theorem length_bytes_take_inj (hK : k ≤ text.length) (hPlace : place ≤ text.length)
    (h : (bytes (text.take k)).length = (bytes (text.take place)).length) : k = place := by
  rcases Nat.lt_trichotomy k place with hLess | hSame | hMore
  · exact absurd h (Nat.ne_of_lt (length_bytes_take_lt hLess hPlace))
  · exact hSame
  · exact absurd h.symm (Nat.ne_of_lt (length_bytes_take_lt hMore hK))

theorem firstAt_iff_bytes : FirstAt part text k ↔ k ≤ text.length ∧
    FirstAt (bytes part) (bytes text) (bytes (text.take k)).length := by
  constructor
  · exact fun h => ⟨h.le_length, firstAt_bytes_iff.mpr ⟨k, h.le_length, h, rfl⟩⟩
  · rintro ⟨hK, h⟩
    obtain ⟨found, hFound, hFirst, hPlace⟩ := firstAt_bytes_iff.mp h
    rwa [length_bytes_take_inj hK hFound hPlace]

end

end HtmlTemplate.Text
