/-! Results that are a value or an error, and when a value comes out of them. -/
namespace HtmlTemplate

section

variable {ε δ α β : Type} {x : Except ε α} {b : β}

theorem map_eq_ok {f : α → β} : x.map f = .ok b ↔ ∃ a, x = .ok a ∧ f a = b := by
  cases x with
  | error e => exact ⟨nofun, nofun⟩
  | ok a =>
      refine ⟨fun h => ⟨a, rfl, Except.ok.inj h⟩, ?_⟩
      rintro ⟨_, hValue, rfl⟩
      cases hValue
      rfl

theorem map_eq_error {f : α → β} {e : ε} : x.map f = .error e ↔ x = .error e := by
  cases x with
  | error _ => exact ⟨fun h => congrArg _ (Except.error.inj h), fun h => congrArg _ (Except.error.inj h)⟩
  | ok _ => exact ⟨nofun, nofun⟩

theorem bind_eq_ok {f : α → Except ε β} : x >>= f = .ok b ↔ ∃ a, x = .ok a ∧ f a = .ok b := by
  cases x with
  | error e => exact ⟨nofun, nofun⟩
  | ok a =>
      refine ⟨fun h => ⟨a, rfl, h⟩, ?_⟩
      rintro ⟨_, hValue, h⟩
      cases hValue
      exact h

/-- What follows a value matters where there is one. -/
theorem bind_congr_ok {f g : α → Except ε β} (h : ∀ a, x = .ok a → f a = g a) :
    x >>= f = x >>= g := by
  cases x with
  | error e => rfl
  | ok a => exact h a rfl

theorem mapError_eq_ok {f : ε → δ} {a : α} : x.mapError f = .ok a ↔ x = .ok a := by
  cases x with
  | error e => exact ⟨nofun, nofun⟩
  | ok _ => exact ⟨fun h => congrArg _ (Except.ok.inj h), fun h => congrArg _ (Except.ok.inj h)⟩

theorem mapError_eq_error {f : ε → δ} {d : δ} :
    x.mapError f = .error d ↔ ∃ e, x = .error e ∧ f e = d := by
  cases x with
  | error e =>
      refine ⟨fun h => ⟨e, rfl, Except.error.inj h⟩, ?_⟩
      rintro ⟨_, ⟨⟩, rfl⟩
      rfl
  | ok _ => exact ⟨nofun, nofun⟩

theorem toOption_eq_some {a : α} : x.toOption = some a ↔ x = .ok a := by
  cases x with
  | error e => exact ⟨nofun, nofun⟩
  | ok _ => exact ⟨fun h => congrArg _ (Option.some.inj h), fun h => congrArg _ (Except.ok.inj h)⟩

/-- Two texts put in front are put in front as one. -/
theorem map_append_map (front back : List α) (x : Except ε (List α)) :
    (x.map (back ++ ·)).map (front ++ ·) = x.map (front ++ back ++ ·) := by
  cases x with
  | error e => rfl
  | ok behind => exact congrArg Except.ok (List.append_assoc front back behind).symm

/-- Where each has a value, the values are found in the opposite order as well. -/
theorem mapM_reverse_eq_ok {f : α → Except ε β} {as : List α} {bs : List β}
    (h : as.mapM f = .ok bs) : as.reverse.mapM f = .ok bs.reverse := by
  induction as generalizing bs with
  | nil =>
      cases h
      rfl
  | cons a rest ih =>
      rw [List.mapM_cons] at h
      obtain ⟨b, hFirst, h⟩ := bind_eq_ok.mp h
      obtain ⟨others, hRest, h⟩ := bind_eq_ok.mp h
      cases h
      rw [List.reverse_cons, List.mapM_append, ih hRest, List.mapM_cons, List.mapM_nil, hFirst,
        List.reverse_cons]
      rfl

end

end HtmlTemplate
