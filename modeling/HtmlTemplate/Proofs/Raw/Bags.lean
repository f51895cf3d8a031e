import HtmlTemplate.Proofs.Raw.Values

/-! Bags that differ in their raw data alone. A bag holds each name once, in ascending
order, and what is looked up in two such bags by a text that cannot name the raw data is
the same. -/
namespace HtmlTemplate

open Text (Plain)

namespace Bag

/-- A bag in ascending order of its names. -/
def Sorted (bag : Bag) : Prop := bag.Pairwise (·.1 < ·.1)

theorem mem_insert {bag : Bag} {name : String} {v : Data} {entry : String × Data}
    (h : entry ∈ bag.insert name v) : entry = (name, v) ∨ entry ∈ bag := by
  induction bag with
  | nil => exact .inl (List.mem_singleton.mp h)
  | cons first rest ih =>
      obtain ⟨key, old⟩ := first
      unfold insert at h
      split at h
      · rcases List.mem_cons.mp h with h | h
        · exact .inl h
        · exact .inr (List.mem_cons_of_mem _ h)
      · split at h
        · exact List.mem_cons.mp h
        · rcases List.mem_cons.mp h with h | h
          · exact .inr (h ▸ List.mem_cons_self)
          · exact (ih h).imp_right (List.mem_cons_of_mem _)

theorem mem_extend {bag other : Bag} {entry : String × Data} (h : entry ∈ bag.extend other) :
    entry ∈ other ∨ entry ∈ bag := by
  unfold extend at h
  induction other generalizing bag with
  | nil => exact .inr h
  | cons first rest ih =>
      rcases ih h with h | h
      · exact .inl (List.mem_cons_of_mem _ h)
      · rcases mem_insert h with h | h
        · exact .inl (h ▸ List.mem_cons_self)
        · exact .inr h

theorem mem_ofList {entries : List (String × Data)} {entry : String × Data}
    (h : entry ∈ ofList entries) : entry ∈ entries :=
  (mem_extend h).resolve_right List.not_mem_nil

theorem mem_set {bag : Bag} {name : String} {v : Data} {entry : String × Data}
    (h : entry ∈ bag.set name v) : entry = (name, v) ∨ entry ∈ bag := by
  induction bag with
  | nil => cases h
  | cons first rest ih =>
      obtain ⟨key, old⟩ := first
      unfold set at h
      split at h
      · next hKey =>
        rcases List.mem_cons.mp h with h | h
        · exact .inl (hKey ▸ h)
        · exact .inr (List.mem_cons_of_mem _ h)
      · rcases List.mem_cons.mp h with h | h
        · exact .inr (h ▸ List.mem_cons_self)
        · exact (ih h).imp_right (List.mem_cons_of_mem _)

theorem Sorted.insert {bag : Bag} (h : bag.Sorted) (name : String) (v : Data) :
    (bag.insert name v).Sorted := by
  induction bag with
  | nil => exact List.pairwise_singleton _ _
  | cons first rest ih =>
      obtain ⟨key, old⟩ := first
      obtain ⟨hFirst, hRest⟩ := List.pairwise_cons.mp h
      unfold Bag.insert
      split
      · next hSame =>
        subst hSame
        exact List.pairwise_cons.mpr ⟨hFirst, hRest⟩
      · split
        · next hLess =>
          refine List.pairwise_cons.mpr ⟨?_, h⟩
          intro entry hMem
          rcases List.mem_cons.mp hMem with rfl | hMem
          · exact hLess
          · exact String.lt_trans hLess (hFirst entry hMem)
        · next hNe hNotLess =>
          refine List.pairwise_cons.mpr ⟨?_, ih hRest⟩
          intro entry hMem
          rcases mem_insert hMem with rfl | hMem
          · have hLe := String.not_lt.mp hNotLess
            exact Decidable.not_not.mp fun hLt =>
              hNe (String.le_antisymm (String.not_lt.mp hLt) hLe)
          · exact hFirst entry hMem

theorem Sorted.extend {bag : Bag} (h : bag.Sorted) (other : Bag) : (bag.extend other).Sorted := by
  unfold Bag.extend
  induction other generalizing bag with
  | nil => exact h
  | cons entry rest ih => exact ih (h.insert entry.1 entry.2)

theorem sorted_ofList (entries : List (String × Data)) : (ofList entries).Sorted :=
  Sorted.extend List.Pairwise.nil entries

theorem Sorted.erase {bag : Bag} (h : bag.Sorted) (name : String) : (bag.erase name).Sorted :=
  h.filter _

theorem get?_eq_none {bag : Bag} {name : String} (h : ∀ entry ∈ bag, entry.1 ≠ name) :
    bag.get? name = none := by
  cases hFound : bag.get? name with
  | none => rfl
  | some v => exact absurd rfl (h _ (mem_of_get? hFound))

theorem get?_erase (bag : Bag) {name other : String} (h : other ≠ name) :
    (bag.erase name).get? other = bag.get? other := by
  unfold erase
  induction bag with
  | nil => rfl
  | cons entry rest ih =>
      by_cases hKey : entry.1 = name
      · have hOther : entry.1 ≠ other := fun hSame => h (hSame.symm.trans hKey)
        rw [List.filter_cons_of_neg (by simpa using hKey), ih, get?, if_neg hOther]
      · rw [List.filter_cons_of_pos (by simpa using hKey), get?, get?, ih]

/-- What a bag holds that has been extended by another one. -/
theorem get?_extend (bag : Bag) {other : Bag} (h : other.Sorted) (name : String) :
    (bag.extend other).get? name = (other.get? name).or (bag.get? name) := by
  unfold Bag.extend
  induction other generalizing bag with
  | nil => rfl
  | cons entry rest ih =>
      obtain ⟨hFirst, hRest⟩ := List.pairwise_cons.mp h
      rw [List.foldl_cons, ih _ hRest, get?_insert, get?]
      split
      · next hKey =>
        have hGone : get? rest name = none := get?_eq_none fun e he hSame =>
          String.lt_irrefl _ ((hKey.trans hSame.symm) ▸ hFirst e he)
        rw [hGone]
        rfl
      · rfl

end Bag

/-- Two bags that a template without underscores cannot tell apart: all plain names have
the same values, and plain ones. -/
structure Bag.Twins (a b : Bag) : Prop where
  sorted_left : a.Sorted
  sorted_right : b.Sorted
  same : ∀ name, Plain name.toList → a.get? name = b.get? name
  plain : ∀ name v, Plain name.toList → a.get? name = some v → v.Plain

theorem ne_rawKey_of_plain {name : String} (h : Plain name.toList) : name ≠ rawKey := by
  rintro rfl
  exact absurd h (by decide)

namespace Bag.Twins

variable {a b u v : Bag}

/-- A bag without raw data is its own twin. -/
theorem refl (hSorted : a.Sorted) (hPlain : ∀ entry ∈ a, entry.2.Plain) : a.Twins a where
  sorted_left := hSorted
  sorted_right := hSorted
  same _ _ := rfl
  plain _ _ _ h := hPlain _ (Bag.mem_of_get? h)

theorem insert (h : a.Twins b) (name : String) {value : Data} (hPlain : value.Plain) :
    (a.insert name value).Twins (b.insert name value) where
  sorted_left := h.sorted_left.insert name value
  sorted_right := h.sorted_right.insert name value
  same other hOther := by
    rw [get?_insert, get?_insert, h.same other hOther]
  plain other found hOther hFound := by
    rw [get?_insert] at hFound
    split at hFound
    · cases hFound
      exact hPlain
    · exact h.plain other found hOther hFound

theorem extend (h : a.Twins b) (hOther : u.Twins v) : (a.extend u).Twins (b.extend v) where
  sorted_left := h.sorted_left.extend u
  sorted_right := h.sorted_right.extend v
  same name hName := by
    rw [get?_extend a hOther.sorted_left, get?_extend b hOther.sorted_right, h.same name hName,
      hOther.same name hName]
  plain name found hName hFound := by
    rw [get?_extend a hOther.sorted_left, Option.or_eq_some_iff] at hFound
    rcases hFound with hFound | ⟨-, hFound⟩
    · exact hOther.plain name found hName hFound
    · exact h.plain name found hName hFound

/-- A plain path leads to the same in both bags, -/
theorem lookup?_eq (h : a.Twins b) {path : String} (hPath : Plain path.toList) :
    a.lookup? path = b.lookup? path := by
  have hKeys := plain_pathSegments hPath
  unfold lookup?
  cases hSegments : pathSegments path with
  | nil => rfl
  | cons name rest =>
      rw [hSegments] at hKeys
      dsimp only
      rw [h.same name (hKeys name List.mem_cons_self)]

/-- and to something plain. -/
theorem plain_lookup? (h : a.Twins b) {path : String} {value : Data} (hPath : Plain path.toList)
    (hFound : a.lookup? path = some value) : value.Plain := by
  have hKeys := plain_pathSegments hPath
  unfold lookup? at hFound
  cases hSegments : pathSegments path with
  | nil =>
      rw [hSegments] at hFound
      cases hFound
  | cons name rest =>
      rw [hSegments] at hKeys hFound
      obtain ⟨part, hPart, hRest⟩ := Option.bind_eq_some_iff.mp hFound
      exact Data.plain_follow (h.plain name part (hKeys name List.mem_cons_self) hPart) hRest

end Bag.Twins

end HtmlTemplate
