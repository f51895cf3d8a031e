import HtmlTemplate.Builtin.Basic

/-! Values that stand for integers. An integer may be carried as such or as a double, and is
read as the same position either way. -/
namespace HtmlTemplate

/-- Whether a value is a number that stands for an integer. -/
inductive Data.IsInteger : Data → Int → Prop where
  | int (n : Int) : IsInteger (.ofInt n) n
  | double {x : Float} {n : Int} (h : Double.toInt? x = some n) :
      IsInteger (.number (.double x)) n

theorem Data.ofInt_inj {m n : Int} : Data.ofInt m = .ofInt n ↔ m = n :=
  ⟨fun h => Number.int.inj (Data.number.inj h), congrArg _⟩

theorem Double.truncate?_of_toInt? {x : Float} {n : Int} (h : toInt? x = some n) :
    truncate? x = some n := by
  unfold toInt? at h
  unfold truncate?
  split at h
  · dsimp only at h ⊢
    split at h
    · cases h
    · exact h
  · cases h

theorem Double.exists_finite_of_toInt? {x : Float} {n : Int} (h : toInt? x = some n) :
    ∃ negative significand exponent, ofFloat x = .finite negative significand exponent := by
  unfold toInt? at h
  split at h
  · next negative significand exponent hParts => exact ⟨_, _, _, hParts⟩
  · cases h

theorem Data.IsInteger.position {v : Data} {n : Int} (h : v.IsInteger n) :
    Position.ofData v = .at n := by
  cases h with
  | int => rfl
  | double hInt =>
      obtain ⟨negative, significand, exponent, hParts⟩ := Double.exists_finite_of_toInt? hInt
      unfold Position.ofData
      simp only [Data.toNumber, Number.toFloat, hParts, Double.truncate?_of_toInt? hInt,
        Option.getD_some]

end HtmlTemplate
