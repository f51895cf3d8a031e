import HtmlTemplate.Source.Location
/-!
Tokens of template source, and the classes of element names the renderer treats
apart.
-/
namespace HtmlTemplate

/-- The words that begin a setup statement or join its parts, and the three
control words of markup. -/
inductive Keyword where
  | asName
  | importPath
  | linkPath
  | function
  | useModule
  | serve
  | ifBranch
  | elseBranch
  | eachItem
  deriving Repr, DecidableEq

namespace Keyword

/-- How a keyword is written. -/
def text : Keyword → String
  | asName => "as"
  | importPath => "import"
  | linkPath => "link"
  | function => "fn"
  | useModule => "use"
  | serve => "serve"
  | ifBranch => "@if"
  | elseBranch => "@else"
  | eachItem => "@each"

/-- The setup keyword a word stands for. -/
def ofWord? : String → Option Keyword
  | "as" => some asName
  | "import" => some importPath
  | "link" => some linkPath
  | "fn" => some function
  | "use" => some useModule
  | "serve" => some serve
  | _ => none

end Keyword

/-- The kinds of tokens. A `blank` is a single white space character; a
`condition` and an `each` are the parenthesised texts behind `@if` and `@each`;
a `block` is the inner text of braces; a `reference` is `@( … )` and a `call` is
`@name( … )`. -/
inductive TokenKind where
  | keyword (k : Keyword)
  | text
  | string
  | blank
  | openParen
  | closeParen
  | openingTag
  | closingTag
  | selfClosingTag
  | doctype
  | condition
  | block
  | each
  | reference
  | call
  | unknown
  deriving Repr, DecidableEq

/-- A piece of source text with its place. -/
structure Token where
  kind : TokenKind
  value : String
  span : Span
  file : String
  deriving Repr, DecidableEq

/-- Where a token is reported. -/
def Token.location (t : Token) : Location :=
  ⟨t.file, t.span.line, t.span.column⟩

/-- The elements that have no closing tag. -/
def voidElements : List String :=
  ["area", "base", "br", "col", "embed", "hr", "img", "input", "link", "meta", "param",
    "source", "track", "wbr"]

/-- Whether an element has no closing tag; the case of its name is ignored. -/
def isVoidElement (name : String) : Bool :=
  voidElements.contains (name.map Char.toLower)

/-- The elements whose content is copied as it stands. -/
def rawElements : List String :=
  ["style", "script"]

/-- Whether the content of an element is copied as it stands; the case of its
name is ignored. -/
def isRawElement (name : String) : Bool :=
  rawElements.contains (name.map Char.toLower)

end HtmlTemplate
