import HtmlTemplate.Render.Scope

/-! Frames under the two operations of an arena. Opening a frame changes no binding at
all, defining a name changes one binding of one frame, and neither moves a frame to
another parent. -/
namespace HtmlTemplate.ScopeArena

variable {α : Type} (arena : ScopeArena α)

/-- How many frames have been opened. -/
def size : Nat :=
  arena.frames.size

/-- What a frame binds is among its entries. -/
theorem lookupLocal?_eq_lookup (scope : Nat) (name : String) :
    arena.lookupLocal? scope name = (arena.entries scope).lookup name := by
  unfold lookupLocal? entries
  cases arena.frames[scope]? <;> rfl

theorem lookupLocal?_congr {arena after : ScopeArena α} {scope : Nat}
    (h : after.entries scope = arena.entries scope) (name : String) :
    after.lookupLocal? scope name = arena.lookupLocal? scope name := by
  rw [lookupLocal?_eq_lookup, lookupLocal?_eq_lookup, h]

section

variable (parent : Option Nat) (scope : Nat)

theorem size_alloc : (arena.alloc parent).1.size = arena.size + 1 :=
  Array.size_push _

theorem getElem?_alloc : (arena.alloc parent).1.frames[scope]? =
    if scope = arena.size then some ⟨[], parent⟩ else arena.frames[scope]? :=
  Array.getElem?_push

@[simp] theorem entries_alloc : (arena.alloc parent).1.entries scope = arena.entries scope := by
  unfold entries
  rw [getElem?_alloc]
  split
  · next h =>
    subst h
    rw [size, Array.getElem?_size]
    rfl
  · rfl

theorem parent?_alloc : (arena.alloc parent).1.parent? scope =
    if scope = arena.size then parent else arena.parent? scope := by
  unfold parent?
  rw [getElem?_alloc]
  split
  · rfl
  · rfl

theorem parent?_alloc_of_lt (h : scope < arena.size) :
    (arena.alloc parent).1.parent? scope = arena.parent? scope := by
  rw [parent?_alloc, if_neg (Nat.ne_of_lt h)]

theorem parent?_alloc_self : (arena.alloc parent).1.parent? arena.size = parent := by
  rw [parent?_alloc, if_pos rfl]

end

section

variable (scope other : Nat) (name second : String) (value : α)

theorem getElem?_define : (arena.define scope name value).frames[other]? =
    if scope = other then (arena.frames[other]?).map (·.define name value)
    else arena.frames[other]? := by
  unfold define
  rw [Array.getElem?_modify]

@[simp] theorem size_define : (arena.define scope name value).size = arena.size :=
  Array.size_modify

@[simp] theorem parent?_define :
    (arena.define scope name value).parent? other = arena.parent? other := by
  unfold parent?
  rw [getElem?_define]
  split
  · cases arena.frames[other]? <;> rfl
  · rfl

theorem entries_define_of_ne (h : scope ≠ other) :
    (arena.define scope name value).entries other = arena.entries other := by
  unfold entries
  rw [getElem?_define, if_neg h]

theorem lookupLocal?_define : (arena.define scope name value).lookupLocal? other second =
    if scope = other ∧ name = second ∧ scope < arena.size then some value
    else arena.lookupLocal? other second := by
  unfold lookupLocal?
  rw [getElem?_define]
  by_cases hScope : scope = other
  · subst hScope
    rw [if_pos rfl]
    cases hFrame : arena.frames[scope]? with
    | none =>
        have hOut : ¬scope < arena.size := Nat.not_lt.mpr (Array.getElem?_eq_none_iff.mp hFrame)
        simp [hOut]
    | some frame =>
        have hIn : scope < arena.size := (Array.getElem?_eq_some_iff.mp hFrame).1
        simp only [Option.map_some, Option.bind_some, Frame.get?, Frame.define, Frame.lookup_bind,
          hIn, true_and, and_true, eq_comm]
  · rw [if_neg hScope, if_neg (fun h => hScope h.1)]

end

theorem entries_define_self {arena : ScopeArena α} {scope : Nat} (hOpen : scope < arena.size)
    (name : String) (value : α) :
    (arena.define scope name value).entries scope =
      Frame.bind name value (arena.entries scope) := by
  have hFrame : arena.frames[scope]? = some arena.frames[scope] :=
    Array.getElem?_eq_getElem hOpen
  unfold entries
  rw [getElem?_define, if_pos rfl, hFrame]
  rfl

/-- Of the names in the order of their first definition, one that is there keeps its place. -/
theorem eraseDups_append_singleton (names : List String) (name : String) :
    (names ++ [name]).eraseDups =
      if name ∈ names.eraseDups then names.eraseDups else names.eraseDups ++ [name] := by
  rw [List.eraseDups_append]
  by_cases hMem : name ∈ names
  · simp [List.removeAll, hMem]
  · simp [List.removeAll, hMem, List.eraseDups_cons]

theorem lookupLocal?_eq_none_of_le {scope : Nat} (h : arena.size ≤ scope) (name : String) :
    arena.lookupLocal? scope name = none := by
  unfold lookupLocal?
  rw [Array.getElem?_eq_none h]
  rfl

/-- In a frame that is chained to no other, a name means what it means there. -/
theorem lookup?_of_root {scope : Nat} (h : arena.parent? scope = none) (name : String) :
    arena.lookup? scope name = arena.lookupLocal? scope name := by
  rw [lookup?]
  simp only [h]
  cases arena.lookupLocal? scope name <;> rfl

/-- A frame without names of its own lets through those of its parent. -/
theorem lookup?_of_empty {scope parent : Nat} {name : String}
    (hParent : arena.parent? scope = some parent) (hLess : parent < scope)
    (hEmpty : arena.lookupLocal? scope name = none) :
    arena.lookup? scope name = arena.lookup? parent name := by
  rw [lookup?]
  simp only [hParent, hEmpty, hLess, ↓reduceIte]

/-- What is found along a chain is bound in one of its frames. -/
theorem exists_of_lookup? {scope : Nat} {name : String} {value : α}
    (h : arena.lookup? scope name = some value) :
    ∃ holder, arena.lookupLocal? holder name = some value := by
  fun_induction lookup? arena scope name with
  | case1 scope found hFound => exact ⟨scope, hFound.trans h⟩
  | case2 scope _ parent _ _ ih => exact ih h
  | case3 => cases h
  | case4 => cases h

/-- The outermost ancestor of a frame is chained to none before it. -/
theorem parent?_root (scope : Nat) :
    ∀ parent, arena.parent? (arena.root scope) = some parent → ¬parent < arena.root scope := by
  fun_induction root arena scope with
  | case1 scope parent _ _ ih => exact ih
  | case2 scope parent hParent hNot =>
      intro other hOther
      cases hParent.symm.trans hOther
      exact hNot
  | case3 scope hParent =>
      intro other hOther
      cases hParent.symm.trans hOther

/-- An arena in which nothing has happened but the opening of frames. -/
structure Opens (arena after : ScopeArena α) : Prop where
  size_le : arena.size ≤ after.size
  parent?_eq : ∀ scope < arena.size, after.parent? scope = arena.parent? scope
  entries_eq : ∀ scope, after.entries scope = arena.entries scope

theorem Opens.refl : arena.Opens arena :=
  ⟨Nat.le_refl _, fun _ _ => rfl, fun _ => rfl⟩

theorem Opens.lookupLocal?_eq {arena after : ScopeArena α} (h : arena.Opens after) (scope : Nat)
    (name : String) : after.lookupLocal? scope name = arena.lookupLocal? scope name :=
  lookupLocal?_congr (h.entries_eq scope) name

theorem Opens.alloc (parent : Option Nat) : arena.Opens (arena.alloc parent).1 where
  size_le := by rw [size_alloc]; exact Nat.le_succ _
  parent?_eq scope h := arena.parent?_alloc_of_lt parent scope h
  entries_eq scope := arena.entries_alloc parent scope

/-- An arena in which besides that only one frame has been written to. -/
structure Writes (scope : Nat) (arena after : ScopeArena α) : Prop where
  size_le : arena.size ≤ after.size
  parent?_eq : ∀ other < arena.size, after.parent? other = arena.parent? other
  entries_eq : ∀ other, other ≠ scope → after.entries other = arena.entries other

variable {arena} {after last : ScopeArena α} {scope : Nat}

theorem Writes.refl (scope : Nat) (arena : ScopeArena α) : Writes scope arena arena :=
  ⟨Nat.le_refl _, fun _ _ => rfl, fun _ _ => rfl⟩

theorem Writes.trans (h : Writes scope arena after) (hNext : Writes scope after last) :
    Writes scope arena last where
  size_le := Nat.le_trans h.size_le hNext.size_le
  parent?_eq other hOther := by
    rw [hNext.parent?_eq other (Nat.lt_of_lt_of_le hOther h.size_le), h.parent?_eq other hOther]
  entries_eq other hOther := by
    rw [hNext.entries_eq other hOther, h.entries_eq other hOther]

theorem Opens.writes (h : arena.Opens after) (scope : Nat) : Writes scope arena after :=
  ⟨h.size_le, h.parent?_eq, fun other _ => h.entries_eq other⟩

theorem writes_define (scope : Nat) (arena : ScopeArena α) (name : String) (value : α) :
    Writes scope arena (arena.define scope name value) where
  size_le := Nat.le_of_eq (arena.size_define scope name value).symm
  parent?_eq other _ := arena.parent?_define scope other name value
  entries_eq other hOther := arena.entries_define_of_ne scope other name value hOther.symm

/-- A frame that is chained to none. -/
def Lone (arena : ScopeArena α) (scope : Nat) : Prop :=
  scope < arena.size ∧ arena.parent? scope = none

theorem Lone.writes (hLone : arena.Lone scope) {other : Nat} (h : Writes other arena after) :
    after.Lone scope :=
  ⟨Nat.lt_of_lt_of_le hLone.1 h.size_le, (h.parent?_eq scope hLone.1).trans hLone.2⟩

theorem lone_alloc (arena : ScopeArena α) : (arena.alloc none).1.Lone arena.size :=
  ⟨by rw [size_alloc]; exact Nat.lt_succ_self _, arena.parent?_alloc_self none⟩

/-- A frame without names of its own that is chained to an earlier one. -/
structure Chained (arena : ScopeArena α) (scope outer : Nat) : Prop where
  lt_size : scope < arena.size
  outer_lt : outer < scope
  parent?_eq : arena.parent? scope = some outer
  entries_eq : arena.entries scope = []

theorem Chained.ne_of_lone {outer other : Nat} (h : arena.Chained scope outer)
    (hLone : arena.Lone other) : scope ≠ other := by
  rintro rfl
  cases h.parent?_eq.symm.trans hLone.2

theorem Chained.lookupLocal?_eq {outer : Nat} (h : arena.Chained scope outer) (name : String) :
    arena.lookupLocal? scope name = none := by
  rw [lookupLocal?_eq_lookup, h.entries_eq]
  rfl

theorem Chained.writes {outer other : Nat} (hChained : arena.Chained scope outer)
    (h : Writes other arena after) (hOther : scope ≠ other) : after.Chained scope outer where
  lt_size := Nat.lt_of_lt_of_le hChained.lt_size h.size_le
  outer_lt := hChained.outer_lt
  parent?_eq := (h.parent?_eq scope hChained.lt_size).trans hChained.parent?_eq
  entries_eq := (h.entries_eq scope hOther).trans hChained.entries_eq

theorem Chained.opens {outer : Nat} (hChained : arena.Chained scope outer) (h : arena.Opens after) :
    after.Chained scope outer where
  lt_size := Nat.lt_of_lt_of_le hChained.lt_size h.size_le
  outer_lt := hChained.outer_lt
  parent?_eq := (h.parent?_eq scope hChained.lt_size).trans hChained.parent?_eq
  entries_eq := (h.entries_eq scope).trans hChained.entries_eq

theorem chained_alloc (arena : ScopeArena α) {outer : Nat} (h : outer < arena.size) :
    (arena.alloc (some outer)).1.Chained arena.size outer where
  lt_size := by rw [size_alloc]; exact Nat.lt_succ_self _
  outer_lt := h
  parent?_eq := arena.parent?_alloc_self (some outer)
  entries_eq := by
    rw [entries_alloc]
    unfold entries
    rw [size, Array.getElem?_size]
    rfl

/-- Names defined at the outermost ancestor of any frame never end up in a frame that is
chained to another. -/
theorem Chained.define_root {outer : Nat} (h : arena.Chained scope outer) (other : Nat)
    (name : String) (value : α) :
    (arena.define (arena.root other) name value).Chained scope outer where
  lt_size := by rw [size_define]; exact h.lt_size
  outer_lt := h.outer_lt
  parent?_eq := by rw [parent?_define]; exact h.parent?_eq
  entries_eq := by
    rw [entries_define_of_ne]
    · exact h.entries_eq
    · rintro rfl
      exact arena.parent?_root other outer h.parent?_eq h.outer_lt

/-- Through a chained frame the names of the outer one are seen. -/
theorem Chained.lookup?_eq {outer : Nat} (h : arena.Chained scope outer) (name : String) :
    arena.lookup? scope name = arena.lookup? outer name :=
  arena.lookup?_of_empty h.parent?_eq h.outer_lt (h.lookupLocal?_eq name)

/-- Everything that is bound in an arena has a property. -/
def Binds (arena : ScopeArena α) (P : α → Prop) : Prop :=
  ∀ scope, ∀ entry ∈ arena.entries scope, P entry.2

variable {P : α → Prop}

theorem binds_empty : (empty : ScopeArena α).Binds P := by
  intro scope entry hEntry
  simp [entries, empty] at hEntry

theorem Binds.opens (h : arena.Binds P) (hOpens : arena.Opens after) : after.Binds P := by
  intro scope
  rw [hOpens.entries_eq scope]
  exact h scope

theorem mem_of_mem_bind {name : String} {value : α} {bindings : List (String × α)}
    {entry : String × α} (h : entry ∈ Frame.bind name value bindings) :
    entry.2 = value ∨ entry ∈ bindings := by
  induction bindings with
  | nil => exact .inl (congrArg Prod.snd (List.mem_singleton.mp h))
  | cons first rest ih =>
      unfold Frame.bind at h
      split at h
      · rcases List.mem_cons.mp h with h | h
        · exact .inl (congrArg Prod.snd h)
        · exact .inr (List.mem_cons_of_mem _ h)
      · rcases List.mem_cons.mp h with h | h
        · exact .inr (h ▸ List.mem_cons_self)
        · exact (ih h).imp_right (List.mem_cons_of_mem _)

theorem Binds.define (h : arena.Binds P) (scope : Nat) (name : String) {value : α}
    (hValue : P value) : (arena.define scope name value).Binds P := by
  intro other entry hEntry
  by_cases hScope : scope = other
  · subst hScope
    unfold entries at hEntry
    rw [getElem?_define, if_pos rfl] at hEntry
    cases hFrame : arena.frames[scope]? with
    | none =>
        rw [hFrame] at hEntry
        cases hEntry
    | some frame =>
        rw [hFrame] at hEntry
        rcases mem_of_mem_bind hEntry with rfl | hOld
        · exact hValue
        · refine h scope entry ?_
          unfold entries
          rw [hFrame]
          exact hOld
  · rw [entries_define_of_ne _ _ _ _ _ hScope] at hEntry
    exact h other entry hEntry

theorem Binds.of_lookup? (h : arena.Binds P) {scope : Nat} {name : String} {value : α}
    (hFound : arena.lookup? scope name = some value) : P value := by
  obtain ⟨holder, hHolder⟩ := arena.exists_of_lookup? hFound
  rw [lookupLocal?_eq_lookup] at hHolder
  obtain ⟨before, behind, hSplit, -⟩ := List.lookup_eq_some_iff.mp hHolder
  exact h holder (name, value) (hSplit ▸ List.mem_append_right before List.mem_cons_self)

end HtmlTemplate.ScopeArena
