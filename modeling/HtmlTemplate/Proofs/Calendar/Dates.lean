import HtmlTemplate.Calendar.Reader
import HtmlTemplate.Proofs.Calendar.Civil
import HtmlTemplate.Proofs.Data.Paths

/-! Dates as texts. A year of four digits, a month and a day of two each, with zeros in front
and hyphens between them, are read as the midnight of that date. -/
namespace HtmlTemplate

/-- The last digits of a number, so many of them, with zeros in front if it has fewer. -/
def padded : (width n : Nat) → List Char
  | 0, _ => []
  | width + 1, n => padded width (n / 10) ++ [Nat.digitChar (n % 10)]

/-- A date in digits, such as `2024-02-29`. -/
def CivilDate.written (d : CivilDate) : List Char :=
  padded 4 d.year.toNat ++ '-' :: (padded 2 d.month ++ '-' :: padded 2 d.day)

section

variable {width n : Nat}

theorem length_padded (width n : Nat) : (padded width n).length = width := by
  induction width generalizing n with
  | zero => rfl
  | succ width ih => rw [padded, List.length_append, ih, List.length_singleton]

theorem isDigit_digitChar : ∀ digit < 10, (Nat.digitChar digit).isDigit = true := by
  decide

theorem toNat_digitChar : ∀ digit < 10, (Nat.digitChar digit).toNat - '0'.toNat = digit := by
  decide

theorem isDigit_of_mem_padded {c : Char} (h : c ∈ padded width n) : c.isDigit = true := by
  induction width generalizing n with
  | zero => cases h
  | succ width ih =>
      rcases List.mem_append.mp h with hFront | hLast
      · exact ih hFront
      · rw [List.mem_singleton.mp hLast]
        exact isDigit_digitChar _ (Nat.mod_lt n (by decide))

theorem exists_padded_eq_cons (width n : Nat) :
    ∃ c digits, padded (width + 1) n = c :: digits ∧ c.isDigit = true := by
  obtain ⟨c, digits, hDigits⟩ := List.exists_cons_of_length_pos
    (l := padded (width + 1) n) (by rw [length_padded]; exact Nat.succ_pos width)
  exact ⟨c, digits, hDigits, isDigit_of_mem_padded (hDigits ▸ List.mem_cons_self)⟩

theorem digitsValue_append_singleton (digits : List Char) (c : Char) :
    digitsValue (digits ++ [c]) = 10 * digitsValue digits + (c.toNat - '0'.toNat) := by
  rw [digitsValue, List.foldl_append]
  rfl

theorem digitsValue_padded (width n : Nat) : digitsValue (padded width n) = n % 10 ^ width := by
  induction width generalizing n with
  | zero => rw [Nat.pow_zero, Nat.mod_one]; rfl
  | succ width ih =>
      rw [padded, digitsValue_append_singleton, ih, toNat_digitChar _ (Nat.mod_lt n (by decide)),
        Nat.pow_succ', Nat.mod_mul, Nat.add_comm]

theorem isBlank_of_isDigit {c : Char} (h : c.isDigit = true) : Text.isBlank c = false := by
  simp only [Char.isDigit, Bool.and_eq_true, decide_eq_true_eq] at h
  have hLow : 48 ≤ c.toNat := h.1
  have hHigh : c.toNat ≤ 57 := h.2
  simp only [Text.isBlank, Bool.or_eq_false_iff, Bool.and_eq_false_iff, decide_eq_false_iff_not,
    beq_eq_false_iff_ne]
  omega

end

namespace Calendar

/-- What is read first is taken off the text for what is read next. -/
theorem bind_of_read {α β : Type} {first : Reader α} {second : α → Reader β} {value : α}
    {text rest : List Char} (h : first text = some (value, rest)) :
    (first >>= second) text = second value rest := by
  change (first text).bind _ = _
  rw [h, Option.bind_some]

theorem literal_cons (c : Char) (text : List Char) : literal c (c :: text) = some ((), text) :=
  if_pos rfl

variable {least most : Nat}

theorem number_padded (hLeast : least ≤ most) (n : Nat) (rest : List Char) :
    number least most (padded most n ++ rest) = some (n % 10 ^ most, rest) := by
  have hTake : (padded most n ++ rest).take most = padded most n :=
    List.take_left' (length_padded most n)
  have hDigits : (padded most n).takeWhile Char.isDigit = padded most n :=
    List.takeWhile_eq_self_iff.mpr fun _ hMem => isDigit_of_mem_padded hMem
  simp only [number, hTake, hDigits, length_padded, Nat.not_lt.mpr hLeast, if_false,
    digitsValue_padded]
  rw [List.drop_left' (length_padded most n)]

theorem blanks_padded (width n : Nat) (rest : List Char) :
    blanks (padded (width + 1) n ++ rest) = some ((), padded (width + 1) n ++ rest) := by
  obtain ⟨c, digits, hDigits, hDigit⟩ := exists_padded_eq_cons width n
  rw [blanks, Text.trimStart_eq_self_iff.mpr]
  intro d hHead
  rw [hDigits, List.cons_append, List.head?_cons, Option.mem_some_iff] at hHead
  exact hHead ▸ isBlank_of_isDigit hDigit

theorem field_padded (n : Nat) (rest : List Char) :
    field (padded 2 n ++ rest) = some (n % 10 ^ 2, rest) := by
  rw [field, bind_of_read (blanks_padded 1 n rest), number_padded (by decide)]

/-- A year without a sign is read as a number of four digits at most. -/
theorem year_padded (n : Nat) (rest : List Char) :
    year (padded 4 n ++ rest) = some (((n % 10 ^ 4 : Nat) : Int), rest) := by
  obtain ⟨c, digits, hDigits, hDigit⟩ := exists_padded_eq_cons 3 n
  have hMinus : c ≠ '-' := by rintro rfl; cases hDigit
  have hPlus : c ≠ '+' := by rintro rfl; cases hDigit
  have hNext : next (padded 4 n ++ rest) = some (some c, padded 4 n ++ rest) := by
    rw [next, hDigits, List.cons_append, List.head?_cons]
  have hNumber := number_padded (by decide : 1 ≤ 4) n rest
  rw [year, bind_of_read (blanks_padded 3 n rest), bind_of_read hNext]
  trans (number 1 4 >>= fun size => pure (size : Int)) (padded 4 n ++ rest)
  · apply congrFun
    split
    · next h => exact absurd (Option.some.inj h) hMinus
    · next h => exact absurd (Option.some.inj h) hPlus
    · rfl
  · rw [bind_of_read hNumber]
    rfl

variable {d : CivilDate}

theorem date_written (h : d.isValid) (hYear : 0 ≤ d.year ∧ d.year ≤ 9999) :
    date d.written = some (d, []) := by
  obtain ⟨hMonth, hDay⟩ := CivilDate.isValid_iff.mp h
  have hLength := CivilDate.monthLength_le d.year d.month
  have hDayField := field_padded d.day []
  rw [List.append_nil] at hDayField
  rw [date, CivilDate.written, bind_of_read (year_padded _ _), bind_of_read (literal_cons _ _),
    bind_of_read (field_padded _ _), bind_of_read (literal_cons _ _), bind_of_read hDayField]
  rw [Nat.mod_eq_of_lt (by omega), Nat.mod_eq_of_lt (by omega), Nat.mod_eq_of_lt (by omega),
    Int.toNat_of_nonneg hYear.1]
  rfl

/-- A date alone has no time, and so is not taken for a date and time in full. -/
theorem whole_complete_written (d : CivilDate) : whole complete d.written = none := by
  have hYear := number_padded (Nat.le_refl 4) d.year.toNat
  have hTwo := number_padded (Nat.le_refl 2)
  have hDay := hTwo d.day []
  rw [List.append_nil] at hDay
  rw [whole, complete, CivilDate.written, bind_of_read (hYear _), bind_of_read (literal_cons _ _),
    bind_of_read (hTwo _ _), bind_of_read (literal_cons _ _), bind_of_read hDay]
  rfl

theorem trim_written (d : CivilDate) : Text.trim d.written = d.written := by
  obtain ⟨c, digits, hDigits, hDigit⟩ := exists_padded_eq_cons 3 d.year.toNat
  refine Text.trim_eq_self_iff.mpr ⟨fun first hFirst => ?_, fun last hLast => ?_⟩
  · rw [CivilDate.written, hDigits, List.cons_append, List.head?_cons,
      Option.mem_some_iff] at hFirst
    exact hFirst ▸ isBlank_of_isDigit hDigit
  · have hEnd : d.written = (padded 4 d.year.toNat ++ '-' :: (padded 2 d.month ++ '-' ::
        padded 1 (d.day / 10))) ++ [Nat.digitChar (d.day % 10)] := by
      simp only [CivilDate.written, padded, List.append_assoc, List.cons_append]
    rw [hEnd, List.getLast?_concat, Option.mem_some_iff] at hLast
    exact hLast ▸ isBlank_of_isDigit (isDigit_digitChar _ (Nat.mod_lt _ (by decide)))

/-- A written date means the beginning of its day. -/
theorem read?_written (h : d.isValid) (hYear : 0 ≤ d.year ∧ d.year ≤ 9999) :
    read? (Text.trim d.written) = some ⟨d.toDays * 86400, 0⟩ := by
  have hDate : dateOnly d.written = some (instant? d 0 0 0 0 0, []) := by
    rw [dateOnly, bind_of_read (date_written h hYear)]
    rfl
  have hInRange : Instant.yearInRange d.year = true := by
    simp only [Instant.yearInRange, Bool.and_eq_true, decide_eq_true_eq]
    omega
  have hInstant : instant? d 0 0 0 0 0 = some ⟨d.toDays * 86400, 0⟩ := by
    simp [instant?, h, hInRange]
  rw [trim_written, read?, whole_complete_written, Option.none_or, whole, hDate, hInstant]
  rfl

end Calendar

end HtmlTemplate
