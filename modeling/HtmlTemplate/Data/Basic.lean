import HtmlTemplate.Number.Decimal
/-!
Template data: the values that parameters, expressions and functions work on.

The fields of an object, and the bag of parameters a template is rendered with,
are lists of named values in ascending order of their names. `Bag.insert` keeps
them so.
-/
namespace HtmlTemplate

/-- A number is an integer of at most 64 bits or a double. -/
inductive Number where
  | int (n : Int)
  | double (x : Float)
  deriving Repr, DecidableEq

/-- The nearest double. -/
def Number.toFloat : Number → Float
  | .int n => Float.ofInt n
  | .double x => x

/-- A value that template code can see. -/
inductive Data where
  | null
  | bool (b : Bool)
  | number (n : Number)
  | string (text : String)
  | array (items : List Data)
  | object (fields : List (String × Data))
  deriving Repr, BEq, Inhabited

namespace Data

/-- An integer as a value. -/
def ofInt (n : Int) : Data :=
  .number (.int n)

/-- A list of characters as a value. -/
def ofChars (text : List Char) : Data :=
  .string (String.ofList text)

def isNull : Data → Bool
  | .null => true
  | _ => false

mutual

/-- How deep arrays and objects are nested in a value. -/
def depth : Data → Nat
  | .array items => depthOfItems items + 1
  | .object fields => depthOfFields fields + 1
  | _ => 0

/-- How deep arrays and objects are nested in one of some values. -/
def depthOfItems : List Data → Nat
  | [] => 0
  | item :: rest => max item.depth (depthOfItems rest)

/-- How deep arrays and objects are nested in one of some named values. -/
def depthOfFields : List (String × Data) → Nat
  | [] => 0
  | (_, value) :: rest => max value.depth (depthOfFields rest)

end

end Data

/-- Named values in ascending order of their names: the fields of an object, or
the parameters a template is rendered with. -/
abbrev Bag := List (String × Data)

namespace Bag

/-- The value of a name. -/
def get? : Bag → String → Option Data
  | [], _ => none
  | (key, value) :: rest, name => if key = name then some value else get? rest name

/-- Gives a name a value, replacing the one it had. -/
def insert (name : String) (value : Data) : Bag → Bag
  | [] => [(name, value)]
  | (key, old) :: rest =>
    if name = key then (name, value) :: rest
    else if name < key then (name, value) :: (key, old) :: rest
    else (key, old) :: insert name value rest

/-- Replaces the value of a name that has one; any other bag is left alone. -/
def set (name : String) (value : Data) : Bag → Bag
  | [] => []
  | (key, old) :: rest =>
    if key = name then (key, value) :: rest else (key, old) :: set name value rest

/-- The bag without a name. -/
def erase (bag : Bag) (name : String) : Bag :=
  bag.filter (·.1 ≠ name)

/-- Adds all entries of `other`, which win over those already there. -/
def extend (bag other : Bag) : Bag :=
  other.foldl (fun all (name, value) => all.insert name value) bag

/-- A bag of entries in any order; of two entries with one name the later counts. -/
def ofList (entries : List (String × Data)) : Bag :=
  extend [] entries

theorem get?_insert (bag : Bag) (name other : String) (value : Data) :
    (bag.insert name value).get? other = if name = other then some value else bag.get? other := by
  induction bag with
  | nil => simp [insert, get?]
  | cons entry rest ih =>
    obtain ⟨key, old⟩ := entry
    unfold insert
    split
    · next same => subst same; grind [get?]
    · split
      · simp [get?]
      · simp only [get?, ih]
        grind

end Bag

end HtmlTemplate
