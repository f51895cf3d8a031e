import HtmlTemplate.Data.Basic
import HtmlTemplate.Text.Blank
/-!
Paths such as `user.tags[0]["first name"]`: how a path is cut into keys, and how
keys lead from a value to a part of it.
-/
namespace HtmlTemplate

/-- Where the reader of a path stands: among the characters of a plain key, or
inside brackets, with the quote that ends the key if one was opened. -/
inductive PathState where
  | plain
  | bracket (quote : Option Char)

/-- The quote that a bracketed key begins with. -/
def openingQuote? : List Char → Option Char
  | c :: _ => if c = '"' || c = '\'' then some c else none
  | [] => none

/-- Whether a character ends a bracketed key: the quote that opened it, or the
closing bracket if none did. -/
def endsKey (quote : Option Char) (c : Char) : Bool :=
  match quote with
  | some q => c == q
  | none => c == ']'

/-- How many characters after the end of a bracketed key belong to it: the
bracket behind a closing quote, and a dot, which separates nothing here. -/
def afterKey (quote : Option Char) (text : List Char) : Nat :=
  match quote, text with
  | some _, ']' :: '.' :: _ => 2
  | some _, ']' :: _ => 1
  | _, '.' :: _ => 1
  | _, _ => 0

/-- Cuts a path into keys, leaving out the next `skip` characters; `current`
holds the key being read, last character first. -/
def pathKeys : (skip : Nat) → PathState → (current : List Char) → List Char → List String
  | _, .plain, current, [] => if current = [] then [] else [String.ofList current.reverse]
  | _, .bracket _, current, [] => [String.ofList current.reverse]
  | skip + 1, state, current, _ :: rest => pathKeys skip state current rest
  | 0, .plain, current, c :: rest =>
    if c = '.' then String.ofList current.reverse :: pathKeys 0 .plain [] rest
    else if c = '[' then
      let quote := openingQuote? rest
      let before := if current = [] then [] else [String.ofList current.reverse]
      before ++ pathKeys (if quote.isSome then 1 else 0) (.bracket quote) [] rest
    else pathKeys 0 .plain (c :: current) rest
  | 0, .bracket quote, current, c :: rest =>
    if endsKey quote c then
      String.ofList current.reverse :: pathKeys (afterKey quote rest) .plain [] rest
    else pathKeys 0 (.bracket quote) (c :: current) rest

/-- The keys of a path, blanks at its ends aside. The empty path is one empty
key. -/
def pathSegments (path : String) : List String :=
  match pathKeys 0 .plain [] (Text.trim path.toList) with
  | [] => [""]
  | keys => keys

namespace Data

/-- One step into a value: the field of an object, or the item of an array at a
position. -/
def child? (value : Data) (key : String) : Option Data :=
  match value with
  | .object fields => Bag.get? fields key
  | .array items => (readNatural? key.toList).bind fun i => items[i]?
  | _ => none

/-- The last step of a path. Here an array also answers for its length. -/
def lastChild? (value : Data) (key : String) : Option Data :=
  match value with
  | .array items => if key = "length" then some (ofInt items.length) else child? value key
  | _ => child? value key

/-- Follows keys into a value, the last of them with `lastChild?`. -/
def follow? : Data → List String → Option Data
  | value, [] => some value
  | value, [key] => value.lastChild? key
  | value, key :: next :: rest => (value.child? key).bind (follow? · (next :: rest))

/-- The part of a value that a path leads to. -/
def get? (value : Data) (path : String) : Option Data :=
  value.follow? (pathSegments path)

end Data

/-- The part of a bag that a path leads to. Its first key is a name in the bag,
never a length. -/
def Bag.lookup? (bag : Bag) (path : String) : Option Data :=
  match pathSegments path with
  | [] => none
  | name :: rest => (bag.get? name).bind (·.follow? rest)

end HtmlTemplate
