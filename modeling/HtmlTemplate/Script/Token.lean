import HtmlTemplate.Number.Decimal
/-!
Tokens of script text: the expressions of conditions and the bodies of functions.
-/
namespace HtmlTemplate.Script

/-- The characters from `start` up to `stop` of a script text. -/
structure Extent where
  start : Nat
  stop : Nat
  deriving Repr, DecidableEq

/-- The smallest extent that covers two. -/
def Extent.cover (a b : Extent) : Extent :=
  ⟨min a.start b.start, max a.stop b.stop⟩

/-- Operators and punctuation. -/
inductive Symbol where
  | plus | minus | star | slash | percent
  | eqEq | notEq | strictEq | strictNotEq
  | lt | gt | lte | gte
  | and | or | not | questionQuestion
  | eq | plusEq | minusEq | starEq | slashEq | plusPlus | minusMinus
  | openParen | closeParen | openBracket | closeBracket | openBrace | closeBrace
  | dot | comma | colon | semicolon | question | optionalChain
  deriving Repr, DecidableEq

/-- How a symbol is written. -/
def Symbol.text : Symbol → String
  | plus => "+" | minus => "-" | star => "*" | slash => "/" | percent => "%"
  | eqEq => "==" | notEq => "!=" | strictEq => "===" | strictNotEq => "!=="
  | lt => "<" | gt => ">" | lte => "<=" | gte => ">="
  | and => "&&" | or => "||" | not => "!" | questionQuestion => "??"
  | eq => "=" | plusEq => "+=" | minusEq => "-=" | starEq => "*=" | slashEq => "/="
  | plusPlus => "++" | minusMinus => "--"
  | openParen => "(" | closeParen => ")" | openBracket => "[" | closeBracket => "]"
  | openBrace => "\x7b" | closeBrace => "\x7d"
  | dot => "." | comma => "," | colon => ":" | semicolon => ";" | question => "?"
  | optionalChain => "?."

/-- The symbols that are found by their spelling alone, in an order in which no
symbol stands behind one that it begins with. -/
def Symbol.byLength : List Symbol :=
  [strictEq, strictNotEq,
    eqEq, notEq, lte, gte, and, or, questionQuestion, plusPlus, minusMinus, plusEq, minusEq,
    starEq, slashEq,
    plus, minus, star, slash, percent, not, lt, gt, eq, openParen, closeParen, openBracket,
    closeBracket, openBrace, closeBrace, dot, comma, colon, semicolon, question]

/-- What a token is. A `reference` is the path inside `@( … )`; `finish` stands at
the end of the text. -/
inductive Lexeme where
  | number (x : Float)
  | string (text : String)
  | boolean (b : Bool)
  | null
  | undefined
  | identifier (name : String)
  | typeof
  | reference (path : String)
  | symbol (s : Symbol)
  | finish
  deriving Repr, DecidableEq

/-- A lexeme and where it stands. -/
structure Token where
  lexeme : Lexeme
  extent : Extent
  deriving Repr, DecidableEq

/-- What can be wrong with the characters of a script text. -/
inductive LexFault where
  | malformedNumber (text : String)
  | unterminatedString
  | unterminatedReference
  | unexpectedCharacter (c : Char)
  deriving Repr, DecidableEq

/-- A fault and the characters it concerns. -/
structure LexError where
  fault : LexFault
  extent : Extent
  deriving Repr, DecidableEq

def LexFault.text : LexFault → String
  | malformedNumber text => "Malformed number \x60" ++ text ++ "\x60"
  | unterminatedString => "Unterminated string literal"
  | unterminatedReference => "Unterminated parameter reference"
  | unexpectedCharacter c => "Unexpected character \x60" ++ String.singleton c ++ "\x60"

def LexError.message (e : LexError) : String :=
  e.fault.text ++ " at position " ++ toString e.extent.start

end HtmlTemplate.Script
