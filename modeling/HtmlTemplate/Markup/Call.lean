import HtmlTemplate.Script.Evaluation
import HtmlTemplate.Source.Lexeme
import HtmlTemplate.Text.Letter
import HtmlTemplate.Text.Quoted
/-!
Calls `@name(argument, …)` in markup. Their arguments are not script text: each is
a number, a parameter path, a nested call, a quoted text, or text as it stands. A
call is first read into a tree and then evaluated.
-/
namespace HtmlTemplate

/-- A text without the `@` it may begin with. -/
def afterSigil : List Char → List Char
  | [] => []
  | c :: rest => if c = '@' then rest else c :: rest

/-- The text between parentheses that reach to the end of a text. -/
def insideParens? : List Char → Option (List Char)
  | '(' :: inner => if inner.getLast? = some ')' then some inner.dropLast else none
  | _ => none

/-- The name of a call and the text between its outer parentheses. -/
def splitCall? (text : List Char) : Option (List Char × List Char) :=
  let body := afterSigil (Text.trim text)
  let name := body.takeWhile Source.isWordChar
  if name = [] then none
  else
    (insideParens? ((body.dropWhile Source.isWordChar).dropWhile Text.isBlank)).map (name, ·)

theorem length_afterSigil_le (text : List Char) : (afterSigil text).length ≤ text.length := by
  cases text with
  | nil => simp [afterSigil]
  | cons c rest => by_cases h : c = '@' <;> simp [afterSigil, h]

theorem insideParens?_eq_some {text inside : List Char} :
    insideParens? text = some inside ↔ text = '(' :: (inside ++ [')']) := by
  constructor
  · intro h
    unfold insideParens? at h
    split at h
    · next inner =>
      split at h
      · next last =>
        obtain ⟨front, rfl⟩ := List.getLast?_eq_some_iff.mp last
        rw [← Option.some.inj h, List.dropLast_concat]
      · simp at h
    · simp at h
  · rintro rfl
    simp [insideParens?]

theorem length_insideParens? {text inside : List Char} (h : insideParens? text = some inside) :
    inside.length < text.length := by
  rw [insideParens?_eq_some.mp h]
  simp only [List.length_cons, List.length_append, List.length_nil]
  omega

theorem length_splitCall? {text name inside : List Char}
    (h : splitCall? text = some (name, inside)) : inside.length < text.length := by
  unfold splitCall? at h
  dsimp only at h
  have first := length_afterSigil_le (Text.trim text)
  generalize afterSigil (Text.trim text) = body at h first
  split at h
  · simp at h
  · simp only [Option.map_eq_some_iff, Prod.mk.injEq] at h
    obtain ⟨inner, found, _, rfl⟩ := h
    have last := length_insideParens? found
    have blanks := Text.length_dropWhile_le Text.isBlank (body.dropWhile Source.isWordChar)
    have word := Text.length_dropWhile_le Source.isWordChar body
    have trimmed := Text.length_trim_le text
    omega

/-- Splits an argument text at its outer commas. Brackets of all kinds nest, and
quotes hide what is in them; a quote behind a backslash is no quote. The argument
being read is `current`, last character first. -/
def splitArgumentsFrom : (depth : Int) → (quote previous : Option Char) →
    (current : List Char) → List Char → List (List Char)
  | _, _, _, current, [] =>
    let last := Text.trim current.reverse
    if last = [] then [] else [last]
  | depth, quote, previous, current, c :: rest =>
    if (c = '"' || c = '\'') && previous ≠ some '\\' then
      let quote :=
        match quote with
        | some q => if q = c then none else some q
        | none => some c
      splitArgumentsFrom depth quote (some c) (c :: current) rest
    else if quote.isNone && (c = '(' || c = '[' || c = '\x7b') then
      splitArgumentsFrom (depth + 1) quote (some c) (c :: current) rest
    else if quote.isNone && (c = ')' || c = ']' || c = '\x7d') then
      splitArgumentsFrom (depth - 1) quote (some c) (c :: current) rest
    else if c = ',' && depth = 0 && quote.isNone then
      Text.trim current.reverse :: splitArgumentsFrom depth quote (some c) [] rest
    else splitArgumentsFrom depth quote (some c) (c :: current) rest

/-- The arguments in the text between the parentheses of a call, blanks around
them aside. An empty last argument does not count. -/
def splitArguments (inside : List Char) : List (List Char) :=
  splitArgumentsFrom 0 none none [] inside

theorem length_of_mem_splitArgumentsFrom {depth : Int} {quote previous : Option Char}
    {current text argument : List Char}
    (h : argument ∈ splitArgumentsFrom depth quote previous current text) :
    argument.length ≤ current.length + text.length := by
  have trimmed (cs : List Char) : (Text.trim cs.reverse).length ≤ cs.length := by
    simpa using Text.length_trim_le cs.reverse
  fun_induction splitArgumentsFrom depth quote previous current text <;>
    grind

/-- An argument of a call. One that has the shape of a call but no plain name is
`malformed`. -/
inductive Argument where
  | number (x : Float)
  | path (path : String)
  | call (name : String) (arguments : List Argument)
  | malformed (text : String)
  | text (text : String)

/-- Whether a text has the shape of a nested call: a word, blanks, and a text in
parentheses. -/
def looksLikeCall (text : List Char) : Bool :=
  match text with
  | [] => false
  | c :: rest =>
    (c.isAlpha || c = '_') &&
      (insideParens? ((rest.dropWhile Text.isWordCharacter).dropWhile Text.isBlank)).isSome

/-- The number a text is, if it begins like one. -/
def numberArgument? (text : List Char) : Option Float :=
  let (_, digits) := takeSign text
  if digits.head?.any fun c => c.isDigit || c = '.' then readDouble? (Text.trimEnd text) else none

/-- Whether a text is a parameter path of plain keys. -/
def isPlainPath (text : List Char) : Bool :=
  text ≠ [] && text.all fun c => Source.isWordChar c || c = '.'

/-- Reads an argument. Back quotes do not quote. -/
def Argument.read (text : List Char) : Argument :=
  match numberArgument? text with
  | some x => .number x
  | none =>
    if isPlainPath text then .path (String.ofList text)
    else if looksLikeCall text then
      match _call : splitCall? text with
      | some (name, inside) =>
        .call (String.ofList name)
          ((splitArguments inside).attach.map fun ⟨argument, _member⟩ => Argument.read argument)
      | none => .malformed (String.ofList (Text.trim text))
    else
      match (if text.head? = some '\x60' then none else Text.unquote? text) with
      | some inner => .text (String.ofList inner)
      | none => .text (String.ofList text)
termination_by text.length
decreasing_by
  have shorter := length_splitCall? _call
  have part := length_of_mem_splitArgumentsFrom _member
  have none := @List.length_nil Char
  omega

/-- A call: the name of a function and its arguments. -/
structure Call where
  name : String
  arguments : List Argument

/-- Reads a whole text as a call. -/
def Call.read? (text : String) : Option Call :=
  (splitCall? text.toList).map fun (name, inside) =>
    ⟨String.ofList name, (splitArguments inside).map Argument.read⟩

/-- Calls a function by its name. -/
def callByName (env : Environment) (name : String) (args : List Data) : Except EvalError Data :=
  match env.function? name with
  | some f => f.call args env
  | none => .error (.notAFunction ("\x60" ++ name ++ "\x60"))

mutual

/-- The value of an argument. A path that leads nowhere is the empty text. -/
def Argument.value (env : Environment) : Argument → Except EvalError Data
  | .number x => .ok (.ofFloat x)
  | .path path =>
    match env.path? path with
    | none | some .null => .ok (.string "")
    | some value => .ok value
  | .call name arguments => do
    let args ← argumentValues env arguments
    callByName env name args
  | .malformed text => .error (.notAFunction text)
  | .text text => .ok (.string text)

/-- The values of arguments, from left to right. -/
def argumentValues (env : Environment) : List Argument → Except EvalError (List Data)
  | [] => .ok []
  | a :: rest => do
    let value ← a.value env
    return value :: (← argumentValues env rest)

end

/-- The values of the arguments of a call. -/
def Call.values (call : Call) (env : Environment) : Except EvalError (List Data) :=
  argumentValues env call.arguments

/-- The value of a text that is a call. -/
def invokeCall (text : String) (env : Environment) : Except EvalError Data :=
  match Call.read? text with
  | some call => do
    let args ← call.values env
    callByName env call.name args
  | none => .error (.notAFunction (String.ofList (Text.trim text.toList)))

end HtmlTemplate
