import HtmlTemplate.Proofs.Session.Arena

/-! Arenas as finite maps on chains of frames. What a frame holds and what a name means in it
is told by the operations that have built the arena, without a look at its frames: a frame
holds what was defined in it last, and a name means what it means in the nearest frame of the
chain that holds it. -/
namespace HtmlTemplate

/-- A name that has a value keeps its place, another one is put behind the others. -/
theorem Frame.map_fst_bind {α : Type} (name : String) (value : α) (bindings : List (String × α)) :
    (bind name value bindings).map Prod.fst =
      if name ∈ bindings.map Prod.fst then bindings.map Prod.fst
      else bindings.map Prod.fst ++ [name] := by
  induction bindings with
  | nil => rfl
  | cons entry rest ih =>
      obtain ⟨key, old⟩ := entry
      unfold bind
      by_cases hKey : key = name
      · subst hKey
        simp
      · rw [if_neg hKey, List.map_cons, ih]
        by_cases hMem : name ∈ rest.map Prod.fst
        · simp [hMem]
        · simp [hMem, Ne.symm hKey]

theorem nodup_eraseDups (names : List String) : names.eraseDups.Nodup := by
  match names with
  | [] => exact .nil
  | name :: rest =>
      rw [List.eraseDups_cons, List.nodup_cons, List.mem_eraseDups]
      exact ⟨by simp, nodup_eraseDups _⟩
termination_by names.length
decreasing_by exact Nat.lt_succ_of_le (List.length_filter_le ..)

namespace ScopeArena

/-- The operations that build an arena with some number of frames, the latest one outermost. A
frame is opened in no other or in one that is there, and names are defined in frames that are
there. -/
inductive History (α : Type) : Nat → Type where
  | start : History α 0
  | alloc {size : Nat} (earlier : History α size) (parent : Option (Fin size)) :
      History α (size + 1)
  | define {size : Nat} (earlier : History α size) (scope : Fin size) (name : String) (value : α) :
      History α size

namespace History

variable {α : Type} {size : Nat}

/-- The arena that the operations leave. -/
def arena : {size : Nat} → History α size → ScopeArena α
  | _, start => empty
  | _, alloc earlier parent => (earlier.arena.alloc (parent.map Fin.val)).1
  | _, define earlier scope name value => earlier.arena.define scope name value

/-- What has been defined in a frame, from the first definition to the last. -/
def definitions (scope : Nat) : {size : Nat} → History α size → List (String × α)
  | _, start => []
  | _, alloc earlier _ => earlier.definitions scope
  | _, define earlier other name value =>
    if other = scope then earlier.definitions scope ++ [(name, value)]
    else earlier.definitions scope

/-- The value most recently defined for a name in a frame. -/
def latest? (history : History α size) (scope : Nat) (name : String) : Option α :=
  (history.definitions scope).reverse.lookup name

/-- A frame, the one it was opened in, and so on to the outermost one. -/
def chain (scope : Nat) : {size : Nat} → History α size → List Nat
  | _, start => []
  | _, @alloc _ size earlier parent =>
    if scope = size then size :: (parent.map fun outer => earlier.chain outer).getD []
    else earlier.chain scope
  | _, define earlier _ _ _ => earlier.chain scope

/-- From a frame on, a name is looked up in `scope` unless a nearer frame holds it. -/
def Reaches (history : History α size) (other scope : Nat) (name : String) : Prop :=
  ∃ nearer farther, history.chain other = nearer ++ scope :: farther ∧
    ∀ frame ∈ nearer, history.latest? frame name = none

/-! The frames. -/

theorem size_arena (history : History α size) : history.arena.size = size := by
  induction history with
  | start => rfl
  | alloc earlier parent ih => rw [arena, size_alloc, ih]
  | define earlier scope name value ih => rw [arena, size_define, ih]

theorem parent_lt (history : History α size) {scope parent : Nat}
    (h : history.arena.parent? scope = some parent) : parent < scope := by
  induction history with
  | start => cases h
  | alloc earlier outer ih =>
      rw [arena, parent?_alloc, size_arena] at h
      split at h
      · next hNew =>
        obtain ⟨frame, -, rfl⟩ := Option.map_eq_some_iff.mp h
        exact hNew ▸ frame.isLt
      · exact ih h
  | define earlier other name value ih =>
      rw [arena, parent?_define] at h
      exact ih h

/-- A chain begins with its frame and goes on with that of the parent. -/
theorem chain_eq (history : History α size) {scope : Nat} (h : scope < size) :
    history.chain scope =
      scope :: ((history.arena.parent? scope).map fun parent => history.chain parent).getD [] := by
  induction history with
  | start => cases h
  | define earlier other name value ih => rw [chain, arena, parent?_define, ih h]; rfl
  | @alloc size earlier outer ih =>
      -- the chains of earlier frames are as they were
      have hEarlier {frame : Nat} (hFrame : frame < size) :
          (earlier.alloc outer).chain frame = earlier.chain frame :=
        if_neg (Nat.ne_of_lt hFrame)
      rw [arena, parent?_alloc, size_arena]
      rcases Nat.lt_succ_iff_lt_or_eq.mp h with hOld | rfl
      · rw [if_neg (Nat.ne_of_lt hOld), hEarlier hOld, ih hOld]
        cases hParent : earlier.arena.parent? scope with
        | none => rfl
        | some parent =>
            have hLess := earlier.parent_lt hParent
            exact congrArg (scope :: ·) (hEarlier (Nat.lt_trans hLess hOld)).symm
      · rw [if_pos rfl, chain, if_pos rfl]
        cases outer with
        | none => rfl
        | some frame => exact congrArg (scope :: ·) (hEarlier frame.isLt).symm

/-! What the frames hold. -/

theorem definitions_define (earlier : History α size) (other : Fin size) (name : String)
    (value : α) (scope : Nat) : (earlier.define other name value).definitions scope =
      if other = scope then earlier.definitions scope ++ [(name, value)]
      else earlier.definitions scope :=
  rfl

theorem latest?_define (earlier : History α size) (other : Fin size) (second : String)
    (value : α) (scope : Nat) (name : String) :
    (earlier.define other second value).latest? scope name =
      if other = scope ∧ second = name then some value else earlier.latest? scope name := by
  unfold latest?
  rw [definitions_define]
  by_cases hScope : other.val = scope
  · rw [if_pos hScope, List.reverse_concat, List.lookup_cons]
    by_cases hName : second = name
    · simp [hScope, hName]
    · simp [hName, beq_eq_false_iff_ne.mpr (Ne.symm hName)]
  · rw [if_neg hScope, if_neg fun h => hScope h.1]

theorem lookupLocal?_eq_latest? (history : History α size) (scope : Nat) (name : String) :
    history.arena.lookupLocal? scope name = history.latest? scope name := by
  induction history with
  | start => rfl
  | alloc earlier parent ih =>
      rw [arena, lookupLocal?_congr (entries_alloc _ _ scope), ih]
      rfl
  | define earlier other second value ih =>
      have hOpen : other.val < earlier.arena.size := earlier.size_arena.symm ▸ other.isLt
      rw [arena, lookupLocal?_define, latest?_define, ih]
      simp only [hOpen, and_true]

/-- The names of a frame stand in the order of their first definitions. -/
theorem names_eq_eraseDups (history : History α size) (scope : Nat) :
    (history.arena.entries scope).map Prod.fst =
      ((history.definitions scope).map Prod.fst).eraseDups := by
  induction history with
  | start => rfl
  | alloc earlier parent ih =>
      rw [arena, entries_alloc, ih]
      rfl
  | define earlier other name value ih =>
      rw [arena, definitions_define]
      by_cases hScope : other.val = scope
      · subst hScope
        have hOpen : other.val < earlier.arena.size := earlier.size_arena.symm ▸ other.isLt
        rw [if_pos rfl, entries_define_self hOpen, Frame.map_fst_bind, List.map_append,
          List.map_singleton, eraseDups_append_singleton, ih]
      · rw [if_neg hScope, entries_define_of_ne _ _ _ _ _ hScope, ih]

/-- A name that is defined again gets its value where it stands. -/
example : ((((start.alloc none).define 0 "a" 1).define 0 "b" 2).define 0 "a" 3).arena.entries 0 =
    [("a", 3), ("b", 2)] := by
  decide

/-! What the names mean. -/

theorem lookup?_eq_findSome? (history : History α size) {scope : Nat} (h : scope < size)
    (name : String) : history.arena.lookup? scope name =
      (history.chain scope).findSome? (history.latest? · name) := by
  fun_induction lookup? history.arena scope name with
  | case1 scope value hFound =>
      rw [history.chain_eq h, List.findSome?_cons, ← lookupLocal?_eq_latest?, hFound]
  | case2 scope hNone parent hParent hLess ih =>
      rw [history.chain_eq h, List.findSome?_cons, ← lookupLocal?_eq_latest?, hNone, hParent]
      exact ih (Nat.lt_trans hLess h)
  | case3 scope hNone parent hParent hNot => exact absurd (history.parent_lt hParent) hNot
  | case4 scope hNone hParent =>
      rw [history.chain_eq h, List.findSome?_cons, ← lookupLocal?_eq_latest?, hNone, hParent]
      rfl

theorem getLast?_chain (history : History α size) {scope : Nat} (h : scope < size) :
    (history.chain scope).getLast? = some (history.arena.root scope) := by
  fun_induction root history.arena scope with
  | case1 scope parent hParent hLess ih =>
      have hRest := ih (Nat.lt_trans hLess h)
      rw [history.chain_eq h, hParent, List.getLast?_cons, Option.map_some, Option.getD_some, hRest]
      rfl
  | case2 scope parent hParent hNot => exact absurd (history.parent_lt hParent) hNot
  | case3 scope hParent =>
      rw [history.chain_eq h, hParent]
      rfl

/-! Searches along a chain before and after a change at one frame of it. -/

section

variable {scope : Nat} {before after : Nat → Option α}

theorem exists_of_findSome?_ne {chain : List Nat}
    (hOthers : ∀ frame, frame ≠ scope → after frame = before frame)
    (h : chain.findSome? after ≠ chain.findSome? before) :
    ∃ nearer farther, chain = nearer ++ scope :: farther ∧ ∀ frame ∈ nearer, before frame = none := by
  induction chain with
  | nil => exact absurd rfl h
  | cons frame rest ih =>
      by_cases hFrame : frame = scope
      · exact ⟨[], rest, by rw [hFrame]; rfl, nofun⟩
      · rw [List.findSome?_cons, List.findSome?_cons, hOthers frame hFrame] at h
        cases hBefore : before frame with
        | some value => simp [hBefore] at h
        | none =>
            rw [hBefore] at h
            obtain ⟨nearer, farther, rfl, hNearer⟩ := ih h
            exact ⟨frame :: nearer, farther, rfl, List.forall_mem_cons.mpr ⟨hBefore, hNearer⟩⟩

theorem findSome?_of_reached {nearer farther : List Nat} {value : α}
    (hOthers : ∀ frame, frame ≠ scope → after frame = before frame) (hHere : after scope = some value)
    (hNearer : ∀ frame ∈ nearer, before frame = none) :
    (nearer ++ scope :: farther).findSome? after = some value := by
  induction nearer with
  | nil => rw [List.nil_append, List.findSome?_cons, hHere]
  | cons frame rest ih =>
      obtain ⟨hFirst, hRest⟩ := List.forall_mem_cons.mp hNearer
      rw [List.cons_append, List.findSome?_cons]
      by_cases hFrame : frame = scope
      · rw [hFrame, hHere]
      · rw [hOthers frame hFrame, hFirst]
        exact ih hRest

end

section

variable (history : History α size) (scope : Fin size) (name : String) (value : α) {other : Nat}

theorem latest?_define_of_ne {frame : Nat} (h : frame ≠ scope) (second : String) :
    (history.define scope name value).latest? frame second = history.latest? frame second := by
  rw [latest?_define, if_neg fun hSame => h hSame.1.symm]

/-- A definition is what its name means in all frames that reach its own. -/
theorem lookup?_define_of_reaches (hOther : other < size) (h : history.Reaches other scope name) :
    (history.arena.define scope name value).lookup? other name = some value := by
  obtain ⟨nearer, farther, hChain, hNearer⟩ := h
  have hHere : (history.define scope name value).latest? scope name = some value := by
    rw [latest?_define, if_pos ⟨rfl, rfl⟩]
  calc (history.define scope name value).arena.lookup? other name
    _ = (history.chain other).findSome? ((history.define scope name value).latest? · name) :=
      lookup?_eq_findSome? _ hOther name
    _ = some value := by
      rw [hChain]
      exact findSome?_of_reached (fun frame hFrame =>
        history.latest?_define_of_ne scope name value hFrame name) hHere hNearer

/-- A definition changes the meaning of its name alone, and only where its frame is reached. -/
theorem reaches_of_lookup?_define_ne (hOther : other < size) {second : String}
    (h : (history.arena.define scope name value).lookup? other second ≠
      history.arena.lookup? other second) :
    second = name ∧ history.Reaches other scope name := by
  have hAfter : (history.arena.define scope name value).lookup? other second =
      (history.chain other).findSome? ((history.define scope name value).latest? · second) :=
    (history.define scope name value).lookup?_eq_findSome? hOther second
  rw [hAfter, history.lookup?_eq_findSome? hOther] at h
  obtain ⟨nearer, farther, hChain, hNearer⟩ := exists_of_findSome?_ne (fun frame hFrame =>
    history.latest?_define_of_ne scope name value hFrame second) h
  by_cases hName : second = name
  · exact ⟨hName, nearer, farther, hChain, hName ▸ hNearer⟩
  · refine absurd (congrArg ((history.chain other).findSome? ·) (funext fun frame => ?_)) h
    rw [latest?_define, if_neg fun hSame => hName hSame.2.symm]

end

/-- What an arena has to be after some operations. The frames are finite maps in the order of
first definitions, chained to frames before them; a name means its latest value in the nearest
frame of the chain that has it, and a definition is seen where its frame is reached and nowhere
else. -/
structure Refines (history : History α size) (arena : ScopeArena α) : Prop where
  size_eq : arena.size = size
  parent_lt : ∀ scope parent, arena.parent? scope = some parent → parent < scope
  names_nodup : ∀ scope, ((arena.entries scope).map Prod.fst).Nodup
  names_eq : ∀ scope, (arena.entries scope).map Prod.fst =
    ((history.definitions scope).map Prod.fst).eraseDups
  local_eq : ∀ scope name, arena.lookupLocal? scope name = history.latest? scope name
  chain_eq : ∀ scope < size, history.chain scope =
    scope :: ((arena.parent? scope).map fun parent => history.chain parent).getD []
  root_eq : ∀ scope < size, (history.chain scope).getLast? = some (arena.root scope)
  lookup_eq : ∀ scope < size, ∀ name,
    arena.lookup? scope name = (history.chain scope).findSome? (history.latest? · name)
  define_seen : ∀ (scope : Fin size) (name : String) (value : α), ∀ other < size,
    history.Reaches other scope name →
      (arena.define scope name value).lookup? other name = some value
  define_apart : ∀ (scope : Fin size) (name : String) (value : α), ∀ other < size, ∀ second,
    (arena.define scope name value).lookup? other second ≠ arena.lookup? other second →
      second = name ∧ history.Reaches other scope name

/-- Whatever is done with an arena, it is a forest of finite maps. -/
theorem arena_refines (history : History α size) : history.Refines history.arena where
  size_eq := history.size_arena
  parent_lt _ _ h := history.parent_lt h
  names_nodup scope := history.names_eq_eraseDups scope ▸ nodup_eraseDups _
  names_eq := history.names_eq_eraseDups
  local_eq := history.lookupLocal?_eq_latest?
  chain_eq _ h := history.chain_eq h
  root_eq _ h := history.getLast?_chain h
  lookup_eq _ h := history.lookup?_eq_findSome? h
  define_seen scope name value _ hOther := history.lookup?_define_of_reaches scope name value hOther
  define_apart scope name value _ hOther _ hChanged :=
    history.reaches_of_lookup?_define_ne scope name value hOther hChanged

end History

end ScopeArena

end HtmlTemplate
