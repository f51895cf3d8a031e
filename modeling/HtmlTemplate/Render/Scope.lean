/-!
Scopes: frames of named values, chained to the frames they were opened in. A frame
refers to its parent by number, and a parent is opened before its children, so
that every chain ends.
-/
namespace HtmlTemplate

/-- Named values in the order of their first definition, and the frame where names
are looked up that are not defined here. -/
structure Frame (α : Type) where
  bindings : List (String × α)
  parent : Option Nat
  deriving Repr

namespace Frame

variable {α : Type}

/-- The value of a name in this frame. -/
def get? (frame : Frame α) (name : String) : Option α :=
  frame.bindings.lookup name

/-- Gives a name a value. A name that has one keeps its place. -/
def bind (name : String) (value : α) : List (String × α) → List (String × α)
  | [] => [(name, value)]
  | (key, old) :: rest =>
    if key = name then (name, value) :: rest else (key, old) :: bind name value rest

/-- The frame with a name defined in it. -/
def define (frame : Frame α) (name : String) (value : α) : Frame α :=
  { frame with bindings := bind name value frame.bindings }

theorem lookup_bind (name other : String) (value : α) (bindings : List (String × α)) :
    (bind name value bindings).lookup other =
      if other = name then some value else bindings.lookup other := by
  induction bindings with
  | nil => simp only [bind, List.lookup_cons, List.lookup_nil]; grind
  | cons entry rest ih =>
    obtain ⟨key, old⟩ := entry
    simp only [bind]
    split <;> simp only [List.lookup_cons] <;> grind

end Frame

/-- The frames of one kind of names, numbered in the order they were opened. -/
structure ScopeArena (α : Type) where
  frames : Array (Frame α)
  deriving Repr

namespace ScopeArena

variable {α : Type}

def empty : ScopeArena α :=
  ⟨#[]⟩

/-- Opens an empty frame and gives its number. -/
def alloc (arena : ScopeArena α) (parent : Option Nat) : ScopeArena α × Nat :=
  let scope := arena.frames.size
  (⟨arena.frames.push ⟨[], parent⟩⟩, scope)

/-- Defines a name in one frame. -/
def define (arena : ScopeArena α) (scope : Nat) (name : String) (value : α) : ScopeArena α :=
  ⟨arena.frames.modify scope (·.define name value)⟩

/-- The frame a frame is chained to. -/
def parent? (arena : ScopeArena α) (scope : Nat) : Option Nat :=
  (arena.frames[scope]?).bind (·.parent)

/-- The value of a name in one frame, whatever its parents hold. -/
def lookupLocal? (arena : ScopeArena α) (scope : Nat) (name : String) : Option α :=
  (arena.frames[scope]?).bind (·.get? name)

/-- The value of a name in a frame or the nearest of its ancestors that holds
it. -/
def lookup? (arena : ScopeArena α) (scope : Nat) (name : String) : Option α :=
  match arena.lookupLocal? scope name with
  | some value => some value
  | none =>
    match arena.parent? scope with
    | some parent => if parent < scope then lookup? arena parent name else none
    | none => none
termination_by scope

/-- The outermost ancestor of a frame. -/
def root (arena : ScopeArena α) (scope : Nat) : Nat :=
  match arena.parent? scope with
  | some parent => if parent < scope then root arena parent else scope
  | none => scope
termination_by scope

/-- The bindings of one frame in the order of their first definition. -/
def entries (arena : ScopeArena α) (scope : Nat) : List (String × α) :=
  ((arena.frames[scope]?).map (·.bindings)).getD []

end ScopeArena

end HtmlTemplate
