import HtmlTemplate.Builtin.Text
import HtmlTemplate.Text.Quoted

/-! Texts that cannot name the raw data. The name of the raw data is a single character,
so that a text without that character names nothing of it, and neither does any text that
is cut from it or put together from such texts. -/
namespace HtmlTemplate.Text

/-- A text without the character that names the raw data. -/
def Plain (text : List Char) : Prop := '_' ∉ text

instance (text : List Char) : Decidable (Plain text) :=
  inferInstanceAs (Decidable ('_' ∉ text))

section

variable {s t : List Char}

@[simp] theorem plain_nil : Plain [] := List.not_mem_nil

@[simp] theorem plain_cons {c : Char} : Plain (c :: t) ↔ c ≠ '_' ∧ Plain t := by
  unfold Plain
  rw [List.mem_cons, not_or]
  exact and_congr_left fun _ => ne_comm

@[simp] theorem plain_append : Plain (s ++ t) ↔ Plain s ∧ Plain t := by
  unfold Plain
  rw [List.mem_append, not_or]

@[simp] theorem plain_reverse : Plain s.reverse ↔ Plain s := by
  unfold Plain
  rw [List.mem_reverse]

@[simp] theorem plain_ofList : Plain (String.ofList s).toList ↔ Plain s := by
  rw [String.toList_ofList]

/-- A text whose characters are among those of a plain one is plain. -/
theorem Plain.subset (h : Plain t) (hSubset : s ⊆ t) : Plain s :=
  fun hMem => h (hSubset hMem)

theorem Plain.ne {c : Char} (h : Plain t) (hMem : c ∈ t) : c ≠ '_' := by
  rintro rfl
  exact h hMem

theorem Plain.take (h : Plain t) (n : Nat) : Plain (t.take n) :=
  h.subset (List.take_subset n t)

theorem Plain.drop (h : Plain t) (n : Nat) : Plain (t.drop n) :=
  h.subset (List.drop_subset n t)

theorem Plain.takeWhile (h : Plain t) (p : Char → Bool) : Plain (t.takeWhile p) :=
  h.subset (List.takeWhile_subset p)

theorem Plain.dropWhile (h : Plain t) (p : Char → Bool) : Plain (t.dropWhile p) :=
  h.subset (List.dropWhile_subset p)

theorem Plain.dropLast (h : Plain t) : Plain t.dropLast :=
  h.subset (List.dropLast_subset t)

theorem plain_flatten {texts : List (List Char)} : Plain texts.flatten ↔ ∀ t ∈ texts, Plain t := by
  unfold Plain
  simp only [List.mem_flatten, not_exists, not_and]

theorem Plain.flatMap {f : Char → List Char} (h : Plain t)
    (hEach : ∀ c, c ≠ '_' → Plain (f c)) : Plain (t.flatMap f) := by
  intro hMem
  obtain ⟨c, hc, hFound⟩ := List.mem_flatMap.mp hMem
  exact hEach c (h.ne hc) hFound

theorem mem_intercalate {texts : List (List Char)} {c : Char} (h : c ∈ s.intercalate texts) :
    c ∈ s ∨ ∃ t ∈ texts, c ∈ t := by
  induction texts with
  | nil => cases h
  | cons first rest ih =>
      cases rest with
      | nil => exact .inr ⟨first, List.mem_singleton_self _, by simpa using h⟩
      | cons next more =>
          rw [List.intercalate_cons_cons, List.append_assoc, List.mem_append, List.mem_append] at h
          rcases h with hFirst | hBetween | hRest
          · exact .inr ⟨first, List.mem_cons_self, hFirst⟩
          · exact .inl hBetween
          · refine (ih hRest).imp_right ?_
            rintro ⟨t, hMem, hFound⟩
            exact ⟨t, List.mem_cons_of_mem first hMem, hFound⟩

theorem Plain.intercalate {texts : List (List Char)} (h : Plain s) (hEach : ∀ t ∈ texts, Plain t) :
    Plain (s.intercalate texts) := by
  intro hMem
  rcases mem_intercalate hMem with hBetween | ⟨t, ht, hFound⟩
  · exact h hBetween
  · exact hEach t ht hFound

end

/-! Reading parts of texts. -/

section

variable {text : List Char}

theorem trim_subset (text : List Char) : trim text ⊆ text := by
  intro c hc
  unfold trim trimEnd trimStart at hc
  rw [List.mem_reverse] at hc
  exact List.dropWhile_subset _ (List.mem_reverse.mp (List.dropWhile_subset _ hc))

theorem Plain.trim (h : Plain text) : Plain (trim text) :=
  h.subset (trim_subset text)

theorem Plain.trimStart (h : Plain text) : Plain (trimStart text) :=
  h.dropWhile isBlank

theorem Plain.trimEnd (h : Plain text) : Plain (trimEnd text) := by
  unfold Text.trimEnd
  rw [plain_reverse]
  exact (plain_reverse.mpr h).dropWhile isBlank

/-- What stands before the first occurrence of a part, and what follows it. -/
theorem Plain.splitFirst {part before after : List Char} (h : Plain text)
    (hSplit : splitFirst? part text = some (before, after)) : Plain before ∧ Plain after := by
  rw [splitFirst?_eq_some hSplit] at h
  simp only [plain_append] at h
  exact ⟨h.1, h.2.2⟩

theorem Plain.pieces {separator : List Char} (h : Plain text) :
    ∀ piece ∈ pieces separator text, Plain piece := by
  fun_induction Text.pieces separator text with
  | case1 text => simpa using h
  | case2 text _ _ => simpa using h
  | case3 text _ before after hSplit ih =>
      obtain ⟨hBefore, hAfter⟩ := h.splitFirst hSplit
      intro piece hMem
      rcases List.mem_cons.mp hMem with rfl | hMem
      · exact hBefore
      · exact ih hAfter piece hMem

theorem Plain.replaceFirst {replacement : List Char} (h : Plain text) (part : List Char)
    (hReplacement : Plain replacement) : Plain (replaceFirst part replacement text) := by
  unfold Text.replaceFirst
  split
  · exact h
  · next before after hSplit =>
    obtain ⟨hBefore, hAfter⟩ := h.splitFirst hSplit
    simp [hBefore, hAfter, hReplacement]

theorem Plain.replaceAll {replacement : List Char} (h : Plain text) (part : List Char)
    (hReplacement : Plain replacement) : Plain (replaceAll part replacement text) := by
  unfold Text.replaceAll
  split
  · rw [plain_append]
    exact ⟨hReplacement, h.flatMap fun c hc => plain_cons.mpr ⟨hc, hReplacement⟩⟩
  · exact hReplacement.intercalate h.pieces

theorem Plain.unquote {inner : List Char} (h : Plain text) (hInner : unquote? text = some inner) :
    Plain inner := by
  unfold unquote? at hInner
  split at hInner
  · next quote rest =>
    split at hInner
    · cases hInner
      exact (plain_cons.mp h).2.dropLast
    · cases hInner
  · cases hInner

end

/-! Upper and lower case. No character but the underscore itself has a form with an
underscore in it. -/

theorem ofNat_ne_underscore {n : Nat} (h : n ≠ 95) : Char.ofNat n ≠ '_' := by
  by_cases hValid : n.isValidChar
  · intro hEq
    have hNat := congrArg Char.toNat hEq
    rw [Char.ofNat, dif_pos hValid] at hNat
    exact h hNat
  · rw [Char.ofNat, dif_neg hValid]
    decide

theorem ascii_ne_underscore {f : Char → Char}
    (hAll : ∀ n < 128, n ≠ 95 → f (Char.ofNat n) ≠ '_') {c : Char} (h : c ≠ '_')
    (hAscii : c.toNat < 128) : f c ≠ '_' := by
  have hNat : c.toNat ≠ 95 := fun hEq => h (by rw [← c.ofNat_toNat, hEq])
  have hSame := hAll c.toNat hAscii hNat
  rwa [c.ofNat_toNat] at hSame

/-- The images of a run all lie below the underscore or all above it. -/
def CaseRun.misses (run : CaseRun) : Bool :=
  decide ((run.last : Int) + run.shift < 95) || decide (95 < (run.first : Int) + run.shift)

theorem CaseRun.image_ne {run : CaseRun} {n image : Nat} (h : run.misses = true)
    (hImage : run.image? n = some image) : image ≠ 95 := by
  unfold misses at h
  unfold image? at hImage
  split at hImage
  · next hCovered =>
    cases hImage
    simp only [Bool.and_eq_true, decide_eq_true_eq, Bool.or_eq_true] at h hCovered
    omega
  · cases hImage

theorem mapped_ne (runs : List CaseRun) (hRuns : runs.all CaseRun.misses = true) {c : Char}
    (h : c ≠ '_') (n : Nat) :
    ((runs.findSome? (·.image? n)).map Char.ofNat).getD c ≠ '_' := by
  cases hFound : runs.findSome? (·.image? n) with
  | none => exact h
  | some image =>
      obtain ⟨run, hMem, hImage⟩ := List.exists_of_findSome?_eq_some hFound
      exact ofNat_ne_underscore (CaseRun.image_ne (List.all_eq_true.mp hRuns run hMem) hImage)

theorem plain_upperOf {c : Char} (h : c ≠ '_') : Plain (upperOf c) := by
  have hForms : ∀ entry ∈ upperExpansions, ∀ n ∈ entry.2, n ≠ 95 := by decide +kernel
  unfold upperOf
  dsimp only
  split
  · next hAscii => simpa using ascii_ne_underscore (by decide) h hAscii
  · split
    · next form hFound =>
      intro hMem
      obtain ⟨n, hn, hEq⟩ := List.mem_map.mp hMem
      exact ofNat_ne_underscore (hForms _ (List.mem_of_find?_eq_some hFound) n hn) hEq
    · simpa using mapped_ne upperRuns (by decide +kernel) h _

theorem plain_lowerOf {c : Char} (h : c ≠ '_') : Plain (lowerOf c) := by
  unfold lowerOf
  dsimp only
  split
  · next hAscii => simpa using ascii_ne_underscore (by decide) h hAscii
  · split
    · decide
    · simpa using mapped_ne lowerRuns (by decide +kernel) h _

theorem Plain.upper {text : List Char} (h : Plain text) : Plain (upper text) :=
  h.flatMap fun _ => plain_upperOf

theorem Plain.lowerAfter {text : List Char} (h : Plain text) (before : List Char) :
    Plain (lowerAfter before text) := by
  induction text generalizing before with
  | nil => exact plain_nil
  | cons c rest ih =>
      obtain ⟨hFirst, hRest⟩ := plain_cons.mp h
      unfold Text.lowerAfter
      dsimp only
      rw [plain_append]
      refine ⟨?_, ih hRest _⟩
      split
      · -- both forms of the small sigma are beyond the underscore
        split <;> decide
      · exact plain_lowerOf hFirst

theorem Plain.lower {text : List Char} (h : Plain text) : Plain (lower text) :=
  h.lowerAfter []

end HtmlTemplate.Text
