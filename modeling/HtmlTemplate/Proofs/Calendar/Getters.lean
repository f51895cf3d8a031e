import HtmlTemplate.Builtin.Group
import HtmlTemplate.Proofs.Calendar.Dates
import HtmlTemplate.Proofs.Data.Integers

/-! The functions of dates. They take a time apart into the day of the calendar, the time of
the day and the day of the week, before 1970 as well as after it, and the parts put together
are the time. -/
namespace HtmlTemplate

/-- A time of the day. -/
structure ClockTime where
  hour : Int
  minute : Int
  second : Int
  milli : Int

namespace ClockTime

def midnight : ClockTime := ⟨0, 0, 0, 0⟩

/-- The milliseconds since midnight. -/
def toMillis (c : ClockTime) : Int :=
  c.hour * 3600000 + c.minute * 60000 + c.second * 1000 + c.milli

/-- What clocks show. -/
structure InRange (c : ClockTime) : Prop where
  hour : 0 ≤ c.hour ∧ c.hour < 24
  minute : 0 ≤ c.minute ∧ c.minute < 60
  second : 0 ≤ c.second ∧ c.second < 60
  milli : 0 ≤ c.milli ∧ c.milli < 1000

end ClockTime

namespace Instant

/-- Whether the time so many milliseconds after the beginning of 1970 can be represented: it
is not before the year -262143 and not after the year 262142. -/
def Represented (millis : Int) : Prop :=
  CivilDate.toDays ⟨-262143, 1, 1⟩ * 86400000 ≤ millis ∧
    millis < CivilDate.toDays ⟨262143, 1, 1⟩ * 86400000

instance (millis : Int) : Decidable (Represented millis) :=
  inferInstanceAs (Decidable (_ ∧ _))

def clock (t : Instant) : ClockTime :=
  ⟨t.hour, t.minute, t.second, t.milli⟩

variable {millis : Int}

theorem inRange_clock {t : Instant} (h : t.nanos < 1000000000) : t.clock.InRange := by
  simp only [clock, hour, minute, second, milli]
  constructor <;> dsimp only <;> omega

theorem toMillis_eq (t : Instant) :
    t.seconds / 86400 * 86400000 + t.clock.toMillis = t.toMillis := by
  simp only [ClockTime.toMillis, clock, hour, minute, second, milli, toMillis]
  omega

theorem yearInRange_iff {d : CivilDate} (h : d.isValid) : yearInRange d.year ↔
    CivilDate.toDays ⟨-262143, 1, 1⟩ ≤ d.toDays ∧ d.toDays < CivilDate.toDays ⟨262143, 1, 1⟩ := by
  rw [← CivilDate.le_year_iff h, ← Int.not_le, ← CivilDate.le_year_iff h]
  simp only [yearInRange, Bool.and_eq_true, decide_eq_true_eq]
  omega

/-- There is an instant for exactly the times that are represented. -/
theorem ofMillis?_eq (millis : Int) : ofMillis? millis =
    if Represented millis then some ⟨millis / 1000, (millis % 1000).toNat * 1000000⟩ else none := by
  have hDay := CivilDate.isDay_ofDays (millis / 1000 / 86400)
  have hYear := yearInRange_iff hDay.isValid
  rw [hDay.toDays_eq] at hYear
  have hSame : yearInRange (CivilDate.ofDays (millis / 1000 / 86400)).year ↔
      Represented millis := by
    rw [hYear, Represented]
    omega
  simp only [ofMillis?, hSame]

/-- The times that are represented are far from the ends of 64 bits. -/
theorem Represented.bounds (h : Represented millis) :
    -10000000000000000 < millis ∧ millis < 10000000000000000 := by
  have hFirst : CivilDate.toDays ⟨-262143, 1, 1⟩ = -96465292 := rfl
  have hBehind : CivilDate.toDays ⟨262143, 1, 1⟩ = 95026237 := rfl
  unfold Represented at h
  omega

end Instant

namespace Builtin.Date

/-- Whether a function answers for a value with an integer. -/
def Answers (name : String) (v : Data) (n : Int) : Prop :=
  (find? functions name).map (·.run [v]) = some (.ok (.ofInt n))

/-- The functions of universal time show a date, a time of the day and a day of the week. -/
structure Shows (v : Data) (d : CivilDate) (c : ClockTime) (weekday : Int) : Prop where
  year : Answers "getUTCFullYear" v d.year
  month : Answers "getUTCMonth" v (d.month - 1)
  day : Answers "getUTCDate" v d.day
  hour : Answers "getUTCHours" v c.hour
  minute : Answers "getUTCMin" v c.minute
  second : Answers "getUTCSec" v c.second
  milli : Answers "getUTCMs" v c.milli
  weekday : Answers "getUTCDay" v weekday

/-- The functions take a time apart into a day, which the count of days comes to, and a time of
that day; put together they are the time. -/
def TakesApart (v : Data) (millis : Int) : Prop :=
  ∃ d n c weekday, CivilDate.IsDay d n ∧ d.FallsOn weekday ∧ ClockTime.InRange c ∧
    n * 86400000 + c.toMillis = millis ∧ Shows v d c weekday ∧ Answers "getTime" v millis

/-- The functions of local time, each with that of universal time. -/
def zones : List (String × String) := [
  ("getFullYear", "getUTCFullYear"), ("getMonth", "getUTCMonth"), ("getDate", "getUTCDate"),
  ("getHours", "getUTCHours"), ("getMin", "getUTCMin"), ("getSec", "getUTCSec"),
  ("getMs", "getUTCMs"), ("getDay", "getUTCDay")]

variable {v : Data} {t : Instant} {n : Int} {d : CivilDate}

theorem answers_getter {name : String} (get : Instant → Int)
    (hName : find? functions name = some (getter name get)) (h : instant? v = some t) :
    Answers name v (get t) := by
  have hArgument : argument [v] 0 = v := rfl
  simp only [Answers, hName, Option.map_some, getter, total, hArgument, h]

/-- Every function reads the same instant. -/
theorem shows_instant (h : instant? v = some t) :
    Shows v t.date t.clock t.weekday where
  year := answers_getter Date.year rfl h
  month := answers_getter Date.month rfl h
  day := answers_getter Date.day rfl h
  hour := answers_getter Instant.hour rfl h
  minute := answers_getter Instant.minute rfl h
  second := answers_getter Instant.second rfl h
  milli := answers_getter Instant.milli rfl h
  weekday := answers_getter Instant.weekday rfl h

theorem answers_getTime (h : instant? v = some t) : Answers "getTime" v t.toMillis :=
  answers_getter Instant.toMillis rfl h

theorem takesApart_instant (h : instant? v = some t) (hNanos : t.nanos < 1000000000) :
    TakesApart v t.toMillis := by
  have hDay : CivilDate.IsDay t.date (t.seconds / 86400) := CivilDate.isDay_ofDays _
  have hWeekday : t.date.FallsOn t.weekday := hDay.fallsOn
  exact ⟨t.date, t.seconds / 86400, t.clock, t.weekday, hDay, hWeekday,
    Instant.inRange_clock hNanos, t.toMillis_eq, shows_instant h, answers_getTime h⟩

theorem instant?_of_isInteger (hInt : v.IsInteger n) (h : Instant.Represented n) :
    instant? v = some ⟨n / 1000, (n % 1000).toNat * 1000000⟩ := by
  have hSaturate : saturate n = n := by
    have hBounds := h.bounds
    simp only [saturate, intBound]
    omega
  have hOf : Instant.ofMillis? (saturate n) =
      some ⟨n / 1000, (n % 1000).toNat * 1000000⟩ := by
    rw [hSaturate, Instant.ofMillis?_eq, if_pos h]
  cases hInt with
  | int => exact hOf
  | double hDouble =>
      rwa [instant?, millis, Double.truncate?_of_toInt? hDouble, Option.getD_some]

theorem takesApart (hInt : v.IsInteger n) (h : Instant.Represented n) : TakesApart v n := by
  have hNanos : (n % 1000).toNat * 1000000 < 1000000000 := by omega
  have hApart := takesApart_instant (instant?_of_isInteger hInt h) hNanos
  have hMillis : Instant.toMillis ⟨n / 1000, (n % 1000).toNat * 1000000⟩ = n := by
    simp only [Instant.toMillis]
    omega
  rwa [hMillis] at hApart

theorem local_eq_universal : ∀ names ∈ zones, ∀ args,
    (find? functions names.1).map (·.run args) = (find? functions names.2).map (·.run args) ∧
      (find? functions names.1).isSome := by
  intro names hMem args
  simp only [zones, List.mem_cons, List.not_mem_nil, or_false] at hMem
  rcases hMem with rfl | rfl | rfl | rfl | rfl | rfl | rfl | rfl <;> exact ⟨rfl, rfl⟩

theorem shows_midnight (hDay : d.IsDay n) (h : instant? v = some ⟨n * 86400, 0⟩) :
    Shows v d .midnight ((n + 4) % 7) := by
  have hShows := shows_instant h
  have hDays : n * 86400 / 86400 = n := by omega
  have hDate : Instant.date ⟨n * 86400, 0⟩ = d := by
    rw [Instant.date, hDays, ← hDay.toDays_eq, CivilDate.ofDays_toDays hDay.isValid]
  have hClock : Instant.clock ⟨n * 86400, 0⟩ = .midnight := by
    simp only [Instant.clock, Instant.hour, Instant.minute, Instant.second, Instant.milli,
      ClockTime.midnight, ClockTime.mk.injEq]
    omega
  rwa [hDate, hClock, Instant.weekday, hDays] at hShows

theorem represented_midnight (hDay : d.IsDay n) (hYear : 0 ≤ d.year ∧ d.year ≤ 9999) :
    Instant.Represented (n * 86400000) := by
  have hInRange : Instant.yearInRange d.year := by
    simp only [Instant.yearInRange, Bool.and_eq_true, decide_eq_true_eq]
    omega
  have hDays := (Instant.yearInRange_iff hDay.isValid).mp hInRange
  rw [hDay.toDays_eq] at hDays
  unfold Instant.Represented
  omega

/-- A written date is the time of its midnight. -/
theorem written_date (hValid : d.isValid) (hYear : 0 ≤ d.year ∧ d.year ≤ 9999) :
    ∃ n weekday, d.IsDay n ∧ d.FallsOn weekday ∧
      Answers "getTime" (.ofChars d.written) (n * 86400000) ∧
      Shows (.ofInt (n * 86400000)) d .midnight weekday := by
  have hDay : d.IsDay d.toDays := CivilDate.isDay_iff.mpr ⟨hValid, rfl⟩
  refine ⟨d.toDays, _, hDay, hDay.fallsOn, ?_, ?_⟩
  · have hInstant : instant? (.ofChars d.written) = some ⟨d.toDays * 86400, 0⟩ := by
      change Calendar.read? (Text.trim (String.ofList d.written).toList) = _
      rw [String.toList_ofList, Calendar.read?_written hValid hYear]
    have hTime := answers_getTime hInstant
    have hMillis : Instant.toMillis ⟨d.toDays * 86400, 0⟩ = d.toDays * 86400000 := by
      simp only [Instant.toMillis]
      omega
    rwa [hMillis] at hTime
  · have hInstant := instant?_of_isInteger (.int _) (represented_midnight hDay hYear)
    refine shows_midnight hDay (hInstant.trans ?_)
    rw [Option.some.injEq, Instant.mk.injEq]
    omega

/-- The functions of universal time take every time that is represented apart into parts that
are the time again, with the days counted from 1970 by the calendar; those of local time do as
they do; and a written date is read as the time that they take apart into it and midnight. -/
theorem getters_take_times_apart :
    (∀ v millis, Data.IsInteger v millis → Instant.Represented millis → TakesApart v millis) ∧
    (∀ names ∈ zones, ∀ args,
      (find? functions names.1).map (·.run args) = (find? functions names.2).map (·.run args) ∧
        (find? functions names.1).isSome) ∧
    (∀ d : CivilDate, d.isValid → 0 ≤ d.year ∧ d.year ≤ 9999 →
      ∃ n weekday, d.IsDay n ∧ d.FallsOn weekday ∧
        Answers "getTime" (.ofChars d.written) (n * 86400000) ∧
        Shows (.ofInt (n * 86400000)) d .midnight weekday) :=
  ⟨fun _ _ => takesApart, local_eq_universal, fun _ => written_date⟩

/-- The last millisecond before 1970, and a leap day. -/
theorem getters_take_times_apart_of_leapDay :
    Instant.Represented (-1) ∧ TakesApart (.ofInt (-1)) (-1) ∧
      CivilDate.written ⟨2000, 2, 29⟩ = "2000-02-29".toList ∧
      ∃ n, CivilDate.IsDay ⟨2000, 2, 29⟩ n ∧
        Answers "getTime" (.ofChars (CivilDate.written ⟨2000, 2, 29⟩)) (n * 86400000) :=
  have hBefore : Instant.Represented (-1) := by decide
  have hTimes := getters_take_times_apart
  have ⟨n, _, hDay, _, hTime, _⟩ := hTimes.2.2 ⟨2000, 2, 29⟩ (by decide) (by decide)
  ⟨hBefore, hTimes.1 _ _ (.int (-1)) hBefore, by decide, n, hDay, hTime⟩

end Builtin.Date

end HtmlTemplate
