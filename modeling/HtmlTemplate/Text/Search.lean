/-!
Searching a text for a part of it. A search answers with what stands before the
first occurrence and what follows it, so that nothing is lost:
`splitFirst?_eq_some` puts the three pieces back together.
-/
namespace HtmlTemplate.Text

/-- What follows `part` in a text that begins with it. -/
def dropPrefix? : (part text : List Char) → Option (List Char)
  | [], text => some text
  | _ :: _, [] => none
  | p :: ps, c :: cs => if p = c then dropPrefix? ps cs else none

/-- Splits a text around the first occurrence of `part`. An empty part occurs at
the very start. -/
def splitFirst? (part : List Char) : List Char → Option (List Char × List Char)
  | [] => (dropPrefix? part []).map ([], ·)
  | c :: cs =>
    match dropPrefix? part (c :: cs) with
    | some rest => some ([], rest)
    | none => (splitFirst? part cs).map fun (before, after) => (c :: before, after)

theorem dropPrefix?_eq_some {part text rest : List Char} (h : dropPrefix? part text = some rest) :
    text = part ++ rest := by
  induction part generalizing text with
  | nil => simpa [dropPrefix?] using h
  | cons p ps ih =>
    cases text with
    | nil => simp [dropPrefix?] at h
    | cons c cs =>
      by_cases same : p = c
      · subst same
        simp only [dropPrefix?, if_true] at h
        rw [List.cons_append, ← ih h]
      · simp [dropPrefix?, same] at h

theorem dropPrefix?_append (part rest : List Char) : dropPrefix? part (part ++ rest) = some rest := by
  induction part with
  | nil => rfl
  | cons p ps ih => simpa [dropPrefix?] using ih

theorem splitFirst?_eq_some {part text before after : List Char}
    (h : splitFirst? part text = some (before, after)) : text = before ++ (part ++ after) := by
  induction text generalizing before with
  | nil =>
    simp only [splitFirst?, Option.map_eq_some_iff, Prod.mk.injEq] at h
    obtain ⟨rest, found, rfl, rfl⟩ := h
    simpa using dropPrefix?_eq_some found
  | cons c cs ih =>
    unfold splitFirst? at h
    split at h
    · next rest found =>
      simp only [Option.some.injEq, Prod.mk.injEq] at h
      obtain ⟨rfl, rfl⟩ := h
      simpa using dropPrefix?_eq_some found
    · simp only [Option.map_eq_some_iff, Prod.mk.injEq] at h
      obtain ⟨⟨inner, rest⟩, found, rfl, rfl⟩ := h
      rw [List.cons_append, ← ih found]

/-- How many characters stand before the first occurrence of `part`. -/
def find? (part text : List Char) : Option Nat :=
  (splitFirst? part text).map fun (before, _) => before.length

/-- Whether `part` occurs in a text. -/
def includes (part text : List Char) : Bool :=
  (splitFirst? part text).isSome

/-- The pieces of a text between the occurrences of a separator, read from the
left. An empty separator leaves the text in one piece. -/
def pieces (separator text : List Char) : List (List Char) :=
  if _nonempty : separator = [] then [text]
  else
    match _found : splitFirst? separator text with
    | none => [text]
    | some (before, after) => before :: pieces separator after
termination_by text.length
decreasing_by
  have whole := splitFirst?_eq_some _found
  have positive := List.length_pos_iff.2 _nonempty
  simp only [whole, List.length_append]
  omega

/-- Puts `replacement` in place of the first occurrence of `part`. -/
def replaceFirst (part replacement text : List Char) : List Char :=
  match splitFirst? part text with
  | none => text
  | some (before, after) => before ++ replacement ++ after

/-- Puts `replacement` in place of every occurrence of `part`. The empty part
occurs before every character and at the end. -/
def replaceAll (part replacement text : List Char) : List Char :=
  if part = [] then replacement ++ text.flatMap (· :: replacement)
  else replacement.intercalate (pieces part text)

/-- What follows `part`, given in lower case, in a text that begins with it when
the case of ASCII letters is ignored. -/
def dropPrefixIgnoringCase? : (part text : List Char) → Option (List Char)
  | [], text => some text
  | _ :: _, [] => none
  | p :: ps, c :: cs => if p = c.toLower then dropPrefixIgnoringCase? ps cs else none

theorem length_dropPrefixIgnoringCase? {part text rest : List Char}
    (h : dropPrefixIgnoringCase? part text = some rest) :
    text.length = part.length + rest.length := by
  induction part generalizing text with
  | nil => simp_all [dropPrefixIgnoringCase?]
  | cons p ps ih =>
    cases text with
    | nil => simp [dropPrefixIgnoringCase?] at h
    | cons c cs =>
      by_cases same : p = c.toLower
      · simp only [dropPrefixIgnoringCase?, if_pos same] at h
        simp only [List.length_cons, ih h]
        omega
      · simp [dropPrefixIgnoringCase?, same] at h

/-- Whether two texts are equal when the case of ASCII letters is ignored. -/
def sameIgnoringCase (a b : List Char) : Bool :=
  a.map Char.toLower == b.map Char.toLower

end HtmlTemplate.Text
