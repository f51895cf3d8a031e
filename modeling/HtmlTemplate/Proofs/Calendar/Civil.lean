import HtmlTemplate.Calendar.Basic
import Mathlib.Tactic.IntervalCases
import Mathlib.Tactic.SplitIfs

/-! Days of the proleptic Gregorian calendar, counted one after another from 1 January 1970.
The calendar itself is the lengths of its months; what is computed in closed form, the number
of a date and the date of a number, is shown to be this count. -/
namespace HtmlTemplate.CivilDate

/-- The day after a day. -/
def next (d : CivilDate) : CivilDate :=
  if d.day < monthLength d.year d.month then ⟨d.year, d.month, d.day + 1⟩
  else if d.month < 12 then ⟨d.year, d.month + 1, 1⟩
  else ⟨d.year + 1, 1, 1⟩

/-- The day before a day. -/
def previous (d : CivilDate) : CivilDate :=
  if 1 < d.day then ⟨d.year, d.month, d.day - 1⟩
  else if 1 < d.month then ⟨d.year, d.month - 1, monthLength d.year (d.month - 1)⟩
  else ⟨d.year - 1, 12, 31⟩

/-- A day of the calendar and its number, by counting days from 1 January 1970. -/
inductive IsDay : CivilDate → Int → Prop where
  | first : IsDay ⟨1970, 1, 1⟩ 0
  | after {d : CivilDate} {n : Int} (h : IsDay d n) : IsDay d.next (n + 1)
  | before {d : CivilDate} {n : Int} (hValid : d.isValid) (h : IsDay d.next (n + 1)) : IsDay d n

/-- The day of the week that a day falls on, Sunday being 0. They take turns, and 1 January
1970 was a Thursday. -/
inductive FallsOn : CivilDate → Int → Prop where
  | first : FallsOn ⟨1970, 1, 1⟩ 4
  | after {d : CivilDate} {weekday : Int} (h : FallsOn d weekday) :
      FallsOn d.next (if weekday = 6 then 0 else weekday + 1)
  | before {d : CivilDate} {weekday : Int} (hValid : d.isValid) (h : FallsOn d.next weekday) :
      FallsOn d (if weekday = 0 then 6 else weekday - 1)

variable {d : CivilDate} {n year weekday : Int} {month : Nat}

/-! ### Months -/

theorem isLeap_iff : isLeap year ↔ year % 4 = 0 ∧ (year % 100 ≠ 0 ∨ year % 400 = 0) := by
  simp only [isLeap, Bool.and_eq_true, Bool.or_eq_true, decide_eq_true_eq]

theorem isValid_iff : d.isValid ↔
    (1 ≤ d.month ∧ d.month ≤ 12) ∧ 1 ≤ d.day ∧ d.day ≤ monthLength d.year d.month := by
  simp only [isValid, Bool.and_eq_true, decide_eq_true_eq, and_assoc]

theorem monthLength_pos (year : Int) (month : Nat) : 1 ≤ monthLength year month := by
  unfold monthLength
  split_ifs <;> omega

theorem monthLength_le (year : Int) (month : Nat) : monthLength year month ≤ 31 := by
  unfold monthLength
  split_ifs <;> omega

theorem isValid_mk {day : Nat} (hMonth : 1 ≤ month ∧ month ≤ 12)
    (hDay : 1 ≤ day ∧ day ≤ monthLength year month) : isValid ⟨year, month, day⟩ :=
  isValid_iff.mpr ⟨hMonth, hDay⟩

theorem isValid_next (h : d.isValid) : d.next.isValid := by
  obtain ⟨hMonth, hDay⟩ := isValid_iff.mp h
  unfold next
  split
  · exact isValid_mk hMonth (by omega)
  · split
    · exact isValid_mk (by omega) ⟨Nat.le_refl 1, monthLength_pos _ _⟩
    · exact isValid_mk (by decide) ⟨Nat.le_refl 1, monthLength_pos _ _⟩

theorem isValid_previous (h : d.isValid) : d.previous.isValid := by
  obtain ⟨hMonth, hDay⟩ := isValid_iff.mp h
  unfold previous
  split
  · exact isValid_mk hMonth (by omega)
  · split
    · exact isValid_mk (by omega) ⟨monthLength_pos _ _, Nat.le_refl _⟩
    · exact isValid_mk (by decide) ⟨by decide, Nat.le_refl 31⟩

theorem next_previous (h : d.isValid) : d.previous.next = d := by
  obtain ⟨year, month, day⟩ := d
  obtain ⟨hMonth, hDay⟩ := isValid_iff.mp h
  dsimp only at hMonth hDay
  unfold previous
  dsimp only
  split
  · have hInside : day - 1 < monthLength year month := by omega
    rw [next, if_pos hInside, Nat.sub_add_cancel hDay.1]
  · obtain rfl : day = 1 := by omega
    split
    · have hBefore : month - 1 < 12 := by omega
      rw [next, if_neg (Nat.lt_irrefl _), if_pos hBefore, Nat.sub_add_cancel hMonth.1]
    · obtain rfl : month = 1 := by omega
      simp [next, monthLength]

/-! ### Years from March to March -/

/-- The number of days from March of the year 0 to March of a year. -/
def marchStart (year : Int) : Int :=
  365 * year + year / 4 - year / 100 + year / 400

/-- The year that a day belongs to if years begin in March. -/
def marchYear (d : CivilDate) : Int :=
  if d.month ≤ 2 then d.year - 1 else d.year

/-- The month of a day, March being 0. -/
def marchMonth (d : CivilDate) : Int :=
  if d.month ≤ 2 then d.month + 9 else d.month - 3

/-- The number of days from the last 1 March to a day. -/
def marchDay (d : CivilDate) : Int :=
  (153 * d.marchMonth + 2) / 5 + d.day - 1

theorem marchStart_add_one (year : Int) :
    marchStart (year + 1) = marchStart year + if isLeap (year + 1) then 366 else 365 := by
  simp only [marchStart, isLeap_iff]
  split <;> omega

theorem marchStart_lt {other : Int} (h : year < other) : marchStart year < marchStart other := by
  unfold marchStart
  omega

/-- All cycles of 400 years have the same number of days. -/
theorem marchStart_eq (year : Int) : marchStart year = year / 400 * 146097 +
    (year % 400 * 365 + year % 400 / 4 - year % 400 / 100) := by
  unfold marchStart
  omega

theorem toDays_eq (d : CivilDate) :
    d.toDays = marchStart d.marchYear + d.marchDay - 719468 := by
  rw [marchStart_eq]
  simp only [toDays, marchDay, marchMonth, marchYear]
  omega

/-- Every month but February is as long as the closed form has it, -/
theorem monthLength_eq (hMonth : 1 ≤ d.month ∧ d.month ≤ 12) (hOther : d.month ≠ 2) :
    (monthLength d.year d.month : Int) =
      (153 * (d.marchMonth + 1) + 2) / 5 - (153 * d.marchMonth + 2) / 5 := by
  obtain ⟨year, month, day⟩ := d
  obtain ⟨hFirst, hTwelfth⟩ := hMonth
  dsimp only at hFirst hTwelfth hOther
  interval_cases month <;> first | contradiction | simp [monthLength, marchMonth]

/-- and February ends the year from March to March. -/
theorem monthLength_february (year : Int) :
    monthLength year 2 = if isLeap year then 29 else 28 := rfl

theorem toDays_firstOfNext (hMonth : 1 ≤ month) (hBefore : month < 12) :
    toDays ⟨year, month + 1, 1⟩ = toDays ⟨year, month, monthLength year month⟩ + 1 := by
  by_cases hLast : month = 2
  · subst hLast
    have hYear := marchStart_add_one (year - 1)
    rw [Int.sub_add_cancel] at hYear
    rw [monthLength_february]
    simp only [toDays_eq, marchYear, marchDay, marchMonth]
    split_ifs at * <;> omega
  · have hLength := monthLength_eq (d := ⟨year, month, 1⟩) ⟨hMonth, Nat.le_of_lt hBefore⟩ hLast
    simp only [toDays_eq, marchYear, marchDay, marchMonth] at hLength ⊢
    split_ifs at * <;> omega

theorem toDays_next (h : d.isValid) : d.next.toDays = d.toDays + 1 := by
  obtain ⟨year, month, day⟩ := d
  obtain ⟨hMonth, hDay⟩ := isValid_iff.mp h
  dsimp only at hMonth hDay
  unfold next
  split
  · simp only [toDays_eq, marchYear, marchDay, marchMonth]
    omega
  · next hLast =>
    obtain rfl : day = monthLength year month := Nat.le_antisymm hDay.2 (Nat.le_of_not_lt hLast)
    split
    · next hBefore => exact toDays_firstOfNext hMonth.1 hBefore
    · next hTwelfth =>
      obtain rfl : month = 12 := Nat.le_antisymm hMonth.2 (Nat.le_of_not_lt hTwelfth)
      have hLength : monthLength year 12 = 31 := rfl
      simp only [hLength, toDays_eq, marchYear, marchDay, marchMonth, Int.add_sub_cancel]
      split_ifs <;> omega

/-! ### The date of a number -/

/-- Of the 400 years of a cycle, the one that a day of the cycle is in. Counting a year for
every 365 days would come out ahead by a day for every fourth year but the last of a century. -/
theorem yearOfDay_eq {century group part day : Int} (hCentury : 0 ≤ century ∧ century < 4)
    (hGroup : 0 ≤ group ∧ group < 25) (hPart : 0 ≤ part ∧ part < 4) (hDay : 0 ≤ day)
    (hLength : day < 365 ∨ day = 365 ∧ part = 3 ∧ (group < 24 ∨ century = 3)) :
    let dayOfCycle := 36524 * century + 1461 * group + 365 * part + day
    (dayOfCycle - dayOfCycle / 1460 + dayOfCycle / 36524 - dayOfCycle / 146096) / 365 =
      100 * century + 4 * group + part := by
  intro dayOfCycle
  by_cases hLast : century = 3 ∧ group = 24 ∧ part = 3 ∧ day = 365
  · obtain ⟨rfl, rfl, rfl, rfl⟩ := hLast
    rfl
  · have hCenturies : dayOfCycle / 36524 = century := by omega
    have hCycles : dayOfCycle / 146096 = 0 := by omega
    rw [hCenturies, hCycles]
    by_cases hAhead : 1460 ≤ 24 * century + group + 365 * part + day
    · have hFours : dayOfCycle / 1460 = 25 * century + group + 1 := by omega
      omega
    · have hFours : dayOfCycle / 1460 = 25 * century + group := by omega
      omega

/-- The same for a year of the cycle, of which the leap day is the last. -/
theorem yearOfCycle_eq {day : Int} (hYear : 0 ≤ year ∧ year < 400) (hDay : 0 ≤ day)
    (hLength : day < 365 ∨ day = 365 ∧ isLeap (year + 1)) :
    let dayOfCycle := year * 365 + year / 4 - year / 100 + day
    (dayOfCycle - dayOfCycle / 1460 + dayOfCycle / 36524 - dayOfCycle / 146096) / 365 = year := by
  rw [isLeap_iff] at hLength
  have hSplit : year = 100 * (year / 100) + 4 * (year % 100 / 4) + year % 4 := by omega
  have hStart : year * 365 + year / 4 - year / 100 =
      36524 * (year / 100) + 1461 * (year % 100 / 4) + 365 * (year % 4) := by omega
  rw [hStart]
  exact (yearOfDay_eq (by omega) (by omega) (by omega) hDay (by omega)).trans hSplit.symm

/-- The leap day is the last day of the year from March to March. -/
theorem marchDay_bounds (h : d.isValid) : 0 ≤ d.marchDay ∧
    (d.marchDay < 365 ∨ d.marchDay = 365 ∧ isLeap (d.marchYear + 1)) := by
  obtain ⟨hMonth, hDay⟩ := isValid_iff.mp h
  by_cases hLast : d.month = 2
  · rw [hLast, monthLength_february] at hDay
    simp only [marchDay, marchMonth, marchYear, hLast, Nat.le_refl, if_true, Int.sub_add_cancel]
    split at hDay
    · next hLeap =>
      exact ⟨by omega, (Int.lt_or_eq_of_le (by omega)).imp_right fun hSame => ⟨hSame, hLeap⟩⟩
    · exact ⟨by omega, .inl (by omega)⟩
  · have hLength := monthLength_eq hMonth hLast
    simp only [marchDay, marchMonth] at hLength ⊢
    split_ifs at * <;> exact ⟨by omega, .inl (by omega)⟩

/-- The month is found again in the day of the year. -/
theorem marchMonth_eq (h : d.isValid) : (5 * d.marchDay + 2) / 153 = d.marchMonth := by
  obtain ⟨hMonth, hDay⟩ := isValid_iff.mp h
  by_cases hLast : d.month = 2
  · rw [hLast, monthLength_february] at hDay
    simp only [marchDay, marchMonth, hLast, Nat.le_refl, if_true]
    split at hDay <;> omega
  · have hLength := monthLength_eq hMonth hLast
    unfold marchDay
    omega

/-- A date is put together again from its year, month and day from March on. -/
theorem ofMarch_eq (h : d.isValid) :
    let month := if d.marchMonth < 10 then d.marchMonth + 3 else d.marchMonth - 9
    let day := d.marchDay - (153 * d.marchMonth + 2) / 5 + 1
    (⟨if month ≤ 2 then d.marchYear + 1 else d.marchYear, month.toNat, day.toNat⟩ : CivilDate) =
      d := by
  obtain ⟨year, month, day⟩ := d
  obtain ⟨hMonth, hDay⟩ := isValid_iff.mp h
  dsimp only at hMonth hDay
  simp only [marchDay, marchMonth, marchYear, mk.injEq]
  split_ifs <;> omega

theorem ofDays_toDays (h : d.isValid) : ofDays d.toDays = d := by
  obtain ⟨hBegun, hLength⟩ := marchDay_bounds h
  have hInCycle : d.marchDay < 365 ∨ d.marchDay = 365 ∧ isLeap (d.marchYear % 400 + 1) := by
    rw [isLeap_iff] at hLength ⊢
    omega
  have hCycle : (d.toDays + 719468) / 146097 = d.marchYear / 400 := by
    rw [toDays_eq, marchStart_eq]
    omega
  have hDayOfCycle : (d.toDays + 719468) % 146097 = d.marchYear % 400 * 365 +
      d.marchYear % 400 / 4 - d.marchYear % 400 / 100 + d.marchDay := by
    rw [toDays_eq, marchStart_eq]
    omega
  have hDayOfYear : d.marchYear % 400 * 365 + d.marchYear % 400 / 4 - d.marchYear % 400 / 100 +
      d.marchDay - (365 * (d.marchYear % 400) + d.marchYear % 400 / 4 -
        d.marchYear % 400 / 100) = d.marchDay := by omega
  have hCycleYear : 0 ≤ d.marchYear % 400 ∧ d.marchYear % 400 < 400 := by omega
  have hYear := yearOfCycle_eq hCycleYear hBegun hInCycle
  unfold ofDays
  simp only [hCycle, hDayOfCycle, hYear, hDayOfYear, marchMonth_eq h, Int.emod_add_ediv_mul]
  exact ofMarch_eq h

/-! ### The count -/

theorem IsDay.isValid (h : d.IsDay n) : d.isValid := by
  induction h with
  | first => decide
  | after _ ih => exact isValid_next ih
  | before hValid _ _ => exact hValid

theorem IsDay.toDays_eq (h : d.IsDay n) : d.toDays = n := by
  induction h with
  | first => rfl
  | after h ih => rw [toDays_next h.isValid, ih]
  | before hValid _ ih =>
      rw [toDays_next hValid] at ih
      omega

/-- The count comes to every number, forwards and backwards. -/
theorem exists_isDay (n : Int) : ∃ d, IsDay d n := by
  induction n using Int.induction_on with
  | zero => exact ⟨_, .first⟩
  | succ n ih =>
      obtain ⟨d, hDay⟩ := ih
      exact ⟨d.next, hDay.after⟩
  | pred n ih =>
      obtain ⟨d, hDay⟩ := ih
      refine ⟨d.previous, .before (isValid_previous hDay.isValid) ?_⟩
      rwa [next_previous hDay.isValid, Int.sub_add_cancel]

theorem isDay_ofDays (n : Int) : IsDay (ofDays n) n := by
  obtain ⟨d, hDay⟩ := exists_isDay n
  have hSame := ofDays_toDays hDay.isValid
  rw [hDay.toDays_eq] at hSame
  rwa [hSame]

/-- A day is that of a number if the number is computed from it. -/
theorem isDay_iff : d.IsDay n ↔ d.isValid ∧ d.toDays = n := by
  constructor
  · exact fun h => ⟨h.isValid, h.toDays_eq⟩
  · rintro ⟨hValid, rfl⟩
    have hDay := isDay_ofDays d.toDays
    rwa [ofDays_toDays hValid] at hDay

theorem toDays_ofDays (n : Int) : (ofDays n).toDays = n :=
  (isDay_ofDays n).toDays_eq

/-! ### The week -/

theorem FallsOn.eq (h : d.FallsOn weekday) : d.isValid ∧ weekday = (d.toDays + 4) % 7 := by
  induction h with
  | first => exact ⟨by decide, rfl⟩
  | after _ ih =>
      obtain ⟨hValid, rfl⟩ := ih
      refine ⟨isValid_next hValid, ?_⟩
      rw [toDays_next hValid]
      omega
  | before hValid _ ih =>
      rw [toDays_next hValid] at ih
      exact ⟨hValid, by omega⟩

theorem IsDay.fallsOn (h : d.IsDay n) : d.FallsOn ((n + 4) % 7) := by
  induction h with
  | first => exact .first
  | @after d n _ ih =>
      have hNext := ih.after
      have hTurn : (if (n + 4) % 7 = 6 then 0 else (n + 4) % 7 + 1) = (n + 1 + 4) % 7 := by omega
      rwa [hTurn] at hNext
  | @before d n hValid _ ih =>
      have hPrevious := FallsOn.before hValid ih
      have hTurn : (if (n + 1 + 4) % 7 = 0 then 6 else (n + 1 + 4) % 7 - 1) = (n + 4) % 7 := by
        omega
      rwa [hTurn] at hPrevious

/-- The day of the week is told by the number of the day, from one week to the next. -/
theorem fallsOn_iff : d.FallsOn weekday ↔ d.isValid ∧ weekday = (d.toDays + 4) % 7 := by
  constructor
  · exact FallsOn.eq
  · rintro ⟨hValid, rfl⟩
    exact (isDay_iff.mpr ⟨hValid, rfl⟩).fallsOn

/-! ### Years -/

theorem toDays_newYear (year : Int) :
    toDays ⟨year, 1, 1⟩ = marchStart (year - 1) + 306 - 719468 := by
  rw [toDays_eq]
  simp [marchYear, marchDay, marchMonth]

theorem le_marchDay_iff (h : d.isValid) : 306 ≤ d.marchDay ↔ d.month ≤ 2 := by
  obtain ⟨hMonth, hDay⟩ := isValid_iff.mp h
  have hMarch := marchMonth_eq h
  unfold marchMonth at hMarch
  split at hMarch <;> omega

/-- A day is in its year. -/
theorem toDays_bounds (h : d.isValid) :
    toDays ⟨d.year, 1, 1⟩ ≤ d.toDays ∧ d.toDays < toDays ⟨d.year + 1, 1, 1⟩ := by
  have hMonth := le_marchDay_iff h
  have hDay := (marchDay_bounds h).1
  have hLength := (marchDay_bounds h).2
  have hYear := marchStart_add_one (d.year - 1)
  rw [toDays_newYear, toDays_newYear, toDays_eq, Int.add_sub_cancel]
  rw [Int.sub_add_cancel] at hYear
  simp only [marchYear] at hLength ⊢
  split at hYear <;> split <;> omega

theorem toDays_newYear_lt {other : Int} (h : year < other) :
    toDays ⟨year, 1, 1⟩ < toDays ⟨other, 1, 1⟩ := by
  have hStart : marchStart (year - 1) < marchStart (other - 1) := marchStart_lt (by omega)
  rw [toDays_newYear, toDays_newYear]
  omega

/-- The years of days are in order. -/
theorem le_year_iff (h : d.isValid) : year ≤ d.year ↔ toDays ⟨year, 1, 1⟩ ≤ d.toDays := by
  obtain ⟨hFirst, hLast⟩ := toDays_bounds h
  constructor
  · intro hLe
    rcases Int.lt_or_eq_of_le hLe with hLess | rfl
    · exact Int.le_of_lt (Int.lt_of_lt_of_le (toDays_newYear_lt hLess) hFirst)
    · exact hFirst
  · intro hLe
    refine Int.le_of_not_gt fun hMore => ?_
    rcases Int.lt_or_eq_of_le (Int.add_one_le_of_lt hMore) with hLess | hSame
    · have := toDays_newYear_lt hLess
      omega
    · rw [hSame] at hLast
      omega

end HtmlTemplate.CivilDate
