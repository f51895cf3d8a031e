import HtmlTemplate.Data.Coercion
/-!
Equality and ordering of values: both equalities are symmetric, the strict one
is finer, and a comparison taken the other way round is the comparison reversed.

Equality with conversion calls itself on the text of an array or object. Its
calls are followed one by one, and no pair of values takes more than one.
-/
namespace HtmlTemplate

namespace Double

theorem equal_comm (x y : Float) : equal x y = equal y x := by
  unfold equal
  cases key? x <;> cases key? y <;> simp [Bool.beq_comm]

/-- A NaN has no key, so it is ordered against nothing from either side. -/
theorem compare?_swap (x y : Float) : compare? y x = (compare? x y).map Ordering.swap := by
  unfold compare?
  cases key? x <;> cases key? y <;> simp [Int.compare_swap]

end Double

namespace Data

/-- Equal texts are both `NaN` or neither is. -/
theorem textEq_comm (x y : String) :
    (x == y && !decide (x = "NaN")) = (y == x && !decide (y = "NaN")) := by
  by_cases same : x = y
  · subst same; rfl
  · rw [beq_false_of_ne same, beq_false_of_ne (Ne.symm same), Bool.false_and, Bool.false_and]

theorem strictEq_comm (a b : Data) : a.strictEq b = b.strictEq a := by
  cases a <;> cases b <;> simp only [strictEq, ne_eq, decide_not]
  case bool.bool => exact Bool.beq_comm
  case number.number => exact Double.equal_comm _ _
  case string.string => exact textEq_comm _ _

/-- What one call of the equality with conversion comes to: a result, or the two
values it calls itself on. -/
def looseStep (a b : Data) : Bool ⊕ (Data × Data) :=
  match a, b with
  | .null, .null => .inl true
  | .null, _ | _, .null => .inl false
  | .string _, .string _ | .number _, .number _ => .inl (strictEq a b)
  | _, _ =>
    match a.isCompound, b.isCompound with
    | true, true => .inl (strictEq a b)
    | true, false => .inr (.string a.display, b)
    | false, true => .inr (a, .string b.display)
    | false, false => .inl (Double.equal a.toNumber b.toNumber)

/-- A finished run of the equality with conversion, and how many times it called
itself. -/
inductive LooseRun : Data → Data → Nat → Bool → Prop where
  | done {a b : Data} {equal : Bool} (step : looseStep a b = .inl equal) :
      LooseRun a b 0 equal
  | call {a b a' b' : Data} {calls : Nat} {equal : Bool}
      (step : looseStep a b = .inr (a', b')) (rest : LooseRun a' b' calls equal) :
      LooseRun a b (calls + 1) equal

/-- How many times the equality with conversion calls itself: once for an array
or object beside a value that is neither and is not null. -/
def looseCalls (a b : Data) : Nat :=
  if a.isNull || b.isNull || a.isCompound == b.isCompound then 0 else 1

/-- A call is made with a text on one side and a value that is not compound on
the other, so it makes no further one. -/
theorem looseStep_cases (a b : Data) :
    (a.looseCalls b = 0 ∧ looseStep a b = .inl (a.looseEq b)) ∨
    (a.looseCalls b = 1 ∧ ∃ a' b', looseStep a b = .inr (a', b') ∧
      looseStep a' b' = .inl (a.looseEq b)) := by
  cases a <;> cases b <;>
    simp [looseStep, looseCalls, looseEq, looseEq.looseFlat, isCompound, isNull, strictEq,
      and_assoc]

/-- Every pair of values has one run, and the run ends. -/
theorem looseRun_iff (a b : Data) (calls : Nat) (equal : Bool) :
    LooseRun a b calls equal ↔ calls = a.looseCalls b ∧ equal = a.looseEq b := by
  obtain ⟨hCalls, hStep⟩ | ⟨hCalls, a', b', hStep, hNext⟩ := looseStep_cases a b
  · constructor
    · rintro (⟨step⟩ | ⟨step, rest⟩) <;> simp_all
    · rintro ⟨rfl, rfl⟩
      rw [hCalls]
      exact .done hStep
  · constructor
    · rintro (⟨step⟩ | ⟨step, rest⟩)
      · simp [hStep] at step
      · rw [hStep] at step
        cases step
        obtain ⟨step⟩ | ⟨step, rest⟩ := rest <;> simp_all
    · rintro ⟨rfl, rfl⟩
      rw [hCalls]
      exact .call hStep (.done hNext)

theorem looseEq_comm (a b : Data) : a.looseEq b = b.looseEq a := by
  cases a <;> cases b <;>
    simp [looseEq, looseEq.looseFlat, isCompound, strictEq, textEq_comm, Double.equal_comm]

/-- Truth values are the one type that strict equality compares as they are and
equality with conversion by number. -/
theorem looseEq_bool (a b : Bool) : looseEq (.bool a) (.bool b) = (a == b) := by
  cases a <;> cases b <;> decide +kernel

theorem looseEq_of_strictEq {a b : Data} (hSame : a.strictEq b = true) :
    a.looseEq b = true := by
  cases a <;> cases b <;> simp only [strictEq, Bool.false_eq_true] at hSame
  case null.null => rfl
  case bool.bool => rwa [looseEq_bool]
  case number.number => exact hSame
  case string.string => exact hSame

theorem compare?_swap (a b : Data) : b.compare? a = (a.compare? b).map Ordering.swap := by
  have hNumbers := Double.compare?_swap a.toNumber b.toNumber
  cases a with
  | string x =>
    cases b with
    | string y =>
      simp only [compare?, Bool.and_comm (!isNonFinite y)]
      split
      · by_cases below : x < y
        · simp [below, String.lt_asymm below]
        · by_cases above : y < x
          · simp [above, below]
          · simp [above, below]
      · exact hNumbers
    | _ => exact hNumbers
  | _ => cases b <;> exact hNumbers

/-- Equality and ordering of two values as one coherent whole. -/
structure Coherent (a b : Data) : Prop where
  looseEq_comm : a.looseEq b = b.looseEq a
  strictEq_comm : a.strictEq b = b.strictEq a
  looseEq_of_strictEq : a.strictEq b = true → a.looseEq b = true
  compare?_swap : b.compare? a = (a.compare? b).map Ordering.swap
  looseRun_iff : ∀ calls equal, LooseRun a b calls equal ↔
    calls = a.looseCalls b ∧ equal = a.looseEq b

theorem coherent (a b : Data) : Coherent a b where
  looseEq_comm := looseEq_comm a b
  strictEq_comm := strictEq_comm a b
  looseEq_of_strictEq := looseEq_of_strictEq
  compare?_swap := compare?_swap a b
  looseRun_iff := looseRun_iff a b

end Data

end HtmlTemplate
