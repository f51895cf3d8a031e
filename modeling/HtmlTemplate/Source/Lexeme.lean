import HtmlTemplate.Text.Search
/-!
The parts of template source that are found by looking ahead: quoted literals and
bracketed texts. Each reader gives the text it takes; the rest of the source is
what follows that text, as `closeQuote?_prefix` and `enclosed?_prefix` say.
-/
namespace HtmlTemplate.Source

/-- White space of the template language. -/
def isSpace (c : Char) : Bool :=
  c == ' ' || c == '\t' || c == '\n' || c == '\r' || c == '\x0b' || c == '\x0c'

/-- ASCII letters, digits and the underscore. -/
def isWordChar (c : Char) : Bool :=
  c.isAlphanum || c == '_'

/-- The three characters that open and close quoted texts. -/
def isQuote (c : Char) : Bool :=
  c == '"' || c == '\'' || c == '\x60'

/-- The text up to and including the quote that closes a literal. A backslash
takes the character behind it along. -/
def closeQuote? (quote : Char) : List Char → Option (List Char)
  | [] => none
  | c :: rest =>
    if c = quote then some [c]
    else if c = '\\' then
      match rest with
      | [] => none
      | d :: rest => (closeQuote? quote rest).map fun taken => c :: d :: taken
    else (closeQuote? quote rest).map (c :: ·)

/-- A pair of brackets, and whether quoted texts hide the brackets inside them. -/
structure Brackets where
  opening : Char
  closing : Char
  quoting : Bool

/-- The text up to and including the bracket that closes `depth` further pairs and
the one already open; `quote` is the quote the text is inside of. -/
def enclosed? (b : Brackets) : (depth : Nat) → (quote : Option Char) → List Char →
    Option (List Char)
  | _, _, [] => none
  | depth, some quote, c :: rest =>
    if c = '\\' then
      match rest with
      | [] => none
      | d :: rest => (enclosed? b depth (some quote) rest).map fun taken => c :: d :: taken
    else (enclosed? b depth (if c = quote then none else some quote) rest).map (c :: ·)
  | depth, none, c :: rest =>
    if b.quoting && isQuote c then (enclosed? b depth (some c) rest).map (c :: ·)
    else if c = b.opening then (enclosed? b (depth + 1) none rest).map (c :: ·)
    else if c = b.closing then
      match depth with
      | 0 => some [c]
      | depth + 1 => (enclosed? b depth none rest).map (c :: ·)
    else (enclosed? b depth none rest).map (c :: ·)

/-- Removes white space that stands outside of quoted texts. -/
def dropSpaces : (quote : Option Char) → List Char → List Char
  | _, [] => []
  | some quote, c :: rest =>
    if c = '\\' then
      match rest with
      | [] => [c]
      | d :: rest => c :: d :: dropSpaces (some quote) rest
    else c :: dropSpaces (if c = quote then none else some quote) rest
  | none, c :: rest =>
    if isSpace c then dropSpaces none rest
    else c :: dropSpaces (if isQuote c then some c else none) rest

/-- The raw text before a closing tag, given by the characters it begins with in
lower case; all of the text if there is none. -/
def beforeClosing (closing : List Char) : List Char → List Char
  | [] => []
  | c :: rest =>
    if (Text.dropPrefixIgnoringCase? closing (c :: rest)).isSome then []
    else c :: beforeClosing closing rest

theorem closeQuote?_prefix {quote : Char} {text taken : List Char}
    (h : closeQuote? quote text = some taken) : taken <+: text := by
  fun_induction closeQuote? quote text generalizing taken <;>
    grind [Option.map_eq_some_iff]

theorem enclosed?_prefix {b : Brackets} {depth : Nat} {quote : Option Char}
    {text taken : List Char} (h : enclosed? b depth quote text = some taken) :
    taken <+: text := by
  fun_induction enclosed? b depth quote text generalizing taken <;>
    grind [Option.map_eq_some_iff]

end HtmlTemplate.Source
