/-! Balanced brackets, told by counting: nowhere are more closed than opened, and at the end
as many. What opens and what closes a bracket is left open, so that the braces of blocks
and the tags of elements are balanced in the same sense. -/
namespace HtmlTemplate

/-- Whether a sequence closes the brackets it opens and `depth` others, which have been
opened in front of it, and never more than have been opened by then. -/
structure Balances {α : Type} (opens closes : α → Bool) (depth : Nat) (text : List α) :
    Prop where
  fronts : ∀ front, front <+: text → front.countP closes ≤ front.countP opens + depth
  total : text.countP closes = text.countP opens + depth

section

variable {α : Type} {opens closes : α → Bool} {depth : Nat} {a : α} {text rest : List α}

theorem balances_nil_iff : Balances opens closes depth [] ↔ depth = 0 := by
  refine ⟨fun h => by simpa using h.total.symm, ?_⟩
  rintro rfl
  exact ⟨fun front hFront => by simp [List.prefix_nil.mp hFront], rfl⟩

theorem balances_cons_iff : Balances opens closes depth (a :: rest) ↔
    (∀ front, front <+: rest → (a :: front).countP closes ≤ (a :: front).countP opens + depth) ∧
      (a :: rest).countP closes = (a :: rest).countP opens + depth := by
  refine ⟨fun h => ⟨fun front hFront => h.fronts _ (List.cons_prefix_cons.mpr ⟨rfl, hFront⟩),
    h.total⟩, fun h => ⟨fun front hFront => ?_, h.2⟩⟩
  cases front with
  | nil => exact Nat.zero_le _
  | cons first others =>
      obtain ⟨rfl, hOthers⟩ := List.cons_prefix_cons.mp hFront
      exact h.1 others hOthers

/-- Behind an opening bracket there is one more to be closed, -/
theorem balances_of_opens (hOpens : opens a = true) (hCloses : closes a = false) :
    Balances opens closes depth (a :: rest) ↔ Balances opens closes (depth + 1) rest := by
  simp only [balances_cons_iff, List.countP_cons, hOpens, hCloses, ↓reduceIte, Bool.false_eq_true]
  refine ⟨fun h => ⟨fun front hFront => ?_, by omega⟩,
    fun h => ⟨fun front hFront => ?_, by have := h.total; omega⟩⟩
  · have hLe := h.1 front hFront
    omega
  · have hLe := h.fronts front hFront
    omega

/-- behind a closing one there is one less, -/
theorem balances_of_closes (hOpens : opens a = false) (hCloses : closes a = true) :
    Balances opens closes (depth + 1) (a :: rest) ↔ Balances opens closes depth rest := by
  simp only [balances_cons_iff, List.countP_cons, hOpens, hCloses, ↓reduceIte, Bool.false_eq_true]
  refine ⟨fun h => ⟨fun front hFront => ?_, by omega⟩,
    fun h => ⟨fun front hFront => ?_, by have := h.total; omega⟩⟩
  · have hLe := h.1 front hFront
    omega
  · have hLe := h.fronts front hFront
    omega

/-- which there cannot be if none is open, -/
theorem not_balances_of_closes (hOpens : opens a = false) (hCloses : closes a = true) :
    ¬ Balances opens closes 0 (a :: rest) := by
  intro h
  have hFirst := (balances_cons_iff.mp h).1 [] List.nil_prefix
  simp only [List.countP_cons, List.countP_nil, hOpens, hCloses, ↓reduceIte,
    Bool.false_eq_true] at hFirst
  omega

/-- and all else does not count. -/
theorem balances_of_neither (hOpens : opens a = false) (hCloses : closes a = false) :
    Balances opens closes depth (a :: rest) ↔ Balances opens closes depth rest := by
  simp only [balances_cons_iff, List.countP_cons, hOpens, hCloses, Bool.false_eq_true, ↓reduceIte,
    Nat.add_zero]
  exact ⟨fun h => ⟨h.1, h.2⟩, fun h => ⟨h.fronts, h.total⟩⟩

theorem balances_of_none (h : ∀ a ∈ text, opens a = false ∧ closes a = false) :
    Balances opens closes 0 text := by
  induction text with
  | nil => exact balances_nil_iff.mpr rfl
  | cons a rest ih =>
      obtain ⟨⟨hOpens, hCloses⟩, hRest⟩ := List.forall_mem_cons.mp h
      exact (balances_of_neither hOpens hCloses).mpr (ih hRest)

theorem balances_iff_take : Balances opens closes depth text ↔
    (∀ n < text.length,
      (text.take n).countP closes ≤ (text.take n).countP opens + depth) ∧
      text.countP closes = text.countP opens + depth := by
  refine ⟨fun h => ⟨fun n _ => h.fronts _ (List.take_prefix n text), h.total⟩,
    fun h => ⟨fun front hFront => ?_, h.2⟩⟩
  rw [List.prefix_iff_eq_take.mp hFront]
  rcases Nat.lt_or_eq_of_le hFront.length_le with hLess | hAll
  · exact h.1 _ hLess
  · rw [hAll, List.take_length]
    exact Nat.le_of_eq h.2

instance (opens closes : α → Bool) (depth : Nat) (text : List α) :
    Decidable (Balances opens closes depth text) :=
  decidable_of_iff _ balances_iff_take.symm

end

end HtmlTemplate
