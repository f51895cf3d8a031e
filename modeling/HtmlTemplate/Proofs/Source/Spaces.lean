import HtmlTemplate.Source.Lexeme

/-! White space outside of quoted texts. It is dropped from parts of a text one by one, if the
quotes of each part are paired. -/
namespace HtmlTemplate.Source

/-- Whether a blank behind a text would stand outside of quoted texts. -/
def QuotesPaired (text : List Char) : Prop :=
  dropSpaces none (text ++ [' ']) = dropSpaces none text

instance (text : List Char) : Decidable (QuotesPaired text) :=
  inferInstanceAs (Decidable (_ = _))

theorem dropSpaces_append_of_blank {quote : Option Char} {text : List Char}
    (h : dropSpaces quote (text ++ [' ']) = dropSpaces quote text) (behind : List Char) :
    dropSpaces quote (text ++ behind) = dropSpaces quote text ++ dropSpaces none behind := by
  fun_induction dropSpaces quote text with
  | case1 quote =>
      cases quote with
      | none => rfl
      | some q => simp [dropSpaces] at h
  | case2 quote => simp [dropSpaces] at h
  | case3 quote d rest ih =>
      rw [List.cons_append, List.cons_append, dropSpaces.eq_def] at h ⊢
      simp only [↓reduceIte, List.cons.injEq, true_and] at h
      simp only [↓reduceIte, ih h, List.cons_append]
  | case4 quote c rest hOther ih =>
      rw [List.cons_append, dropSpaces.eq_def] at h ⊢
      simp only [hOther, ↓reduceIte, List.cons.injEq, true_and] at h
      simp only [hOther, ↓reduceIte, ih h, List.cons_append]
  | case5 c rest hSpace ih =>
      rw [List.cons_append, dropSpaces.eq_def] at h ⊢
      simp only [hSpace, ↓reduceIte] at h
      simp only [hSpace, ↓reduceIte, ih h]
  | case6 c rest hSpace ih =>
      rw [List.cons_append, dropSpaces.eq_def] at h ⊢
      simp only [hSpace, Bool.false_eq_true, ↓reduceIte, List.cons.injEq, true_and] at h
      simp only [hSpace, Bool.false_eq_true, ↓reduceIte, ih h, List.cons_append]

/-- Nothing of what stands behind such a text counts as quoted there. -/
theorem QuotesPaired.append {text : List Char} (h : QuotesPaired text) (behind : List Char) :
    dropSpaces none (text ++ behind) = dropSpaces none text ++ dropSpaces none behind :=
  dropSpaces_append_of_blank h behind

/-- A character that is neither white space nor a quote. -/
def isSolid (c : Char) : Bool :=
  !isSpace c && !isQuote c

/-- The other characters. -/
def softChars : List Char :=
  [' ', '\t', '\n', '\r', '\x0b', '\x0c', '"', '\'', '\x60']

theorem mem_softChars (c : Char) (h : isSolid c = false) : c ∈ softChars := by
  simp only [isSolid, isSpace, isQuote, Bool.and_eq_false_iff, Bool.not_eq_false', Bool.or_eq_true,
    beq_iff_eq] at h
  simp only [softChars, List.mem_cons]
  grind

theorem dropSpaces_solid {text : List Char} (h : text.all isSolid = true) (behind : List Char) :
    dropSpaces none (text ++ behind) = text ++ dropSpaces none behind := by
  induction text with
  | nil => rfl
  | cons c rest ih =>
      obtain ⟨hFirst, hRest⟩ := Bool.and_eq_true_iff.mp (List.all_cons ▸ h)
      obtain ⟨hSpace, hQuote⟩ : isSpace c = false ∧ isQuote c = false := by
        simpa [isSolid] using hFirst
      simp only [List.cons_append, dropSpaces, hSpace, hQuote, Bool.false_eq_true, ↓reduceIte,
        ih hRest]

/-- A bracket at the end of a text stays there. -/
theorem dropSpaces_concat {quote : Option Char} {text : List Char} {d : Char}
    (hQuote : ∀ q ∈ quote, isQuote q = true) (hSolid : isSolid d = true) :
    dropSpaces quote (text ++ [d]) = dropSpaces quote text ++ [d] := by
  have hPlain : isSpace d = false ∧ isQuote d = false := by simpa [isSolid] using hSolid
  fun_induction dropSpaces quote text with
  | case1 quote =>
      cases quote with
      | none => simp [dropSpaces, hPlain]
      | some q =>
          rw [List.nil_append, dropSpaces.eq_def]
          simp only [dropSpaces]
          split <;> rfl
  | case2 quote =>
      rw [List.cons_append, dropSpaces.eq_def]
      simp only [↓reduceIte, List.nil_append, dropSpaces]
  | case3 quote d rest ih =>
      rw [List.cons_append, List.cons_append, dropSpaces.eq_def]
      simp only [↓reduceIte, ih hQuote, List.cons_append]
  | case4 quote c rest hOther ih =>
      have hNext : ∀ q ∈ (if c = quote then none else some quote), isQuote q = true := by
        split
        · simp
        · exact hQuote
      rw [List.cons_append, dropSpaces.eq_def]
      simp only [hOther, ↓reduceIte, ih hNext, List.cons_append]
  | case5 c rest hSpace ih =>
      rw [List.cons_append, dropSpaces.eq_def]
      simp only [hSpace, ↓reduceIte, ih hQuote]
  | case6 c rest hSpace ih =>
      have hNext : ∀ q ∈ (if isQuote c then some c else none), isQuote q = true := by
        split <;> simp_all
      rw [List.cons_append, dropSpaces.eq_def]
      simp only [hSpace, Bool.false_eq_true, ↓reduceIte, ih hNext, List.cons_append]

theorem dropSpaces_append_solid {text solid : List Char}
    (h : ∀ c ∈ solid, isSolid c = true) :
    dropSpaces none (text ++ solid) = dropSpaces none text ++ solid := by
  induction solid generalizing text with
  | nil => simp
  | cons c rest ih =>
      obtain ⟨hFirst, hRest⟩ := List.forall_mem_cons.mp h
      rw [List.append_cons text, ih hRest, dropSpaces_concat (by simp) hFirst,
        List.append_assoc, List.singleton_append]

end HtmlTemplate.Source
