import HtmlTemplate.Number.Decimal

/-! The characters of numerals. Whatever a number is and however it is written, its text is
made of digits, of the signs between them and of the letters of the words that stand for
what has no numeral. -/
namespace HtmlTemplate

/-- A character that numbers are written with. -/
def isNumeric (c : Char) : Bool :=
  c.isDigit || "+-.eNaInfinityul".toList.contains c

/-- A text of such characters. -/
def Numeric (text : List Char) : Prop :=
  ∀ c ∈ text, isNumeric c = true

instance (text : List Char) : Decidable (Numeric text) :=
  List.decidableBAll _ text

section

variable {s t : List Char}

@[simp] theorem numeric_nil : Numeric [] :=
  List.forall_mem_nil _

@[simp] theorem numeric_cons {c : Char} : Numeric (c :: t) ↔ isNumeric c = true ∧ Numeric t :=
  List.forall_mem_cons

@[simp] theorem numeric_append : Numeric (s ++ t) ↔ Numeric s ∧ Numeric t :=
  List.forall_mem_append

theorem Numeric.subset (h : Numeric t) (hSubset : s ⊆ t) : Numeric s :=
  fun c hMem => h c (hSubset hMem)

/-- What no number is written with is not in such a text. -/
theorem Numeric.not_mem (h : Numeric t) {c : Char} (hOther : isNumeric c = false) : c ∉ t := by
  intro hMem
  rw [h c hMem] at hOther
  cases hOther

theorem numeric_zeros (n : Nat) : Numeric (List.replicate n '0') := by
  intro c hMem
  rw [List.eq_of_mem_replicate hMem]
  decide

theorem numeric_sign (negative : Bool) : Numeric (if negative then ['-'] else []) := by
  cases negative <;> decide

end

/-! Integers. -/

theorem numeric_digitsOf (n : Nat) : Numeric (Decimal.digitsOf n) := by
  intro c hMem
  have hDigit := Nat.isDigit_of_mem_toDigits (by decide) (by decide) hMem
  simp [isNumeric, hDigit]

theorem numeric_natText (n : Nat) : Numeric (toString n).toList := by
  rw [Nat.toString_eq_repr, Nat.toList_repr]
  exact numeric_digitsOf n

theorem numeric_intText (n : Int) : Numeric (toString n).toList := by
  rw [Int.toString_eq_repr, Int.repr_eq_if]
  split
  · exact numeric_natText n.toNat
  · rw [String.toList_append, numeric_append]
    exact ⟨by decide, numeric_natText _⟩

/-! Layouts. -/

theorem numeric_positional (d : Decimal) : Numeric d.positional := by
  have hPoint : isNumeric '.' = true := by decide
  have hZero : isNumeric '0' = true := by decide
  have hDigits := numeric_digitsOf d.digits
  unfold Decimal.positional
  dsimp only
  split
  · simp [hDigits, numeric_zeros]
  · split
    · simp [hPoint, hDigits.subset (List.take_subset _ _), hDigits.subset (List.drop_subset _ _)]
    · simp [hPoint, hZero, hDigits, numeric_zeros]

theorem numeric_fixed (places significand : Nat) (exponent : Int) :
    Numeric (Decimal.fixed places significand exponent) := by
  have hPoint : isNumeric '.' = true := by decide
  unfold Decimal.fixed
  dsimp only
  split
  · exact numeric_digitsOf _
  · simp [hPoint, numeric_digitsOf, numeric_zeros]

theorem numeric_signedExponent (e : Int) : Numeric (Decimal.signedExponent e) := by
  unfold Decimal.signedExponent
  split
  · exact numeric_intText e
  · exact numeric_cons.mpr ⟨by decide, numeric_intText e⟩

theorem numeric_jsonLayout (d : Decimal) : Numeric d.jsonLayout := by
  have hPoint : isNumeric '.' = true := by decide
  have hZero : isNumeric '0' = true := by decide
  have hLetter : isNumeric 'e' = true := by decide
  have hDigits := numeric_digitsOf d.digits
  unfold Decimal.jsonLayout
  dsimp only
  split
  · simp [hPoint, hZero, hDigits, numeric_zeros]
  · split
    · exact numeric_positional d
    · split
      · exact numeric_nil
      · next c hSame => simp_all [numeric_signedExponent]
      · next c rest _ hSame => simp_all [numeric_signedExponent]

/-! Doubles. -/

theorem numeric_doubleText (x : Float) : Numeric (Double.text x).toList := by
  unfold Double.text
  split
  · decide
  · split <;> decide
  · split
    · split
      · exact numeric_intText _
      · simp [numeric_sign, numeric_positional]
    · simp [numeric_sign, numeric_positional]

theorem numeric_jsonText (x : Float) : Numeric (Double.jsonText x).toList := by
  unfold Double.jsonText
  split
  · simp [numeric_sign, numeric_jsonLayout]
  · decide

end HtmlTemplate
