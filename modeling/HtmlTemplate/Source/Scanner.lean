import HtmlTemplate.Source.Cursor
import HtmlTemplate.Source.Lexeme
/-!
The scanner of template source. It works in two modes: setup statements up to and
including the word `serve`, and markup after it. Every white space character is a
token of its own and so is every character that begins nothing else, so that plain
markup can be put together again from its tokens.
-/
namespace HtmlTemplate

/-- What the scanner is in the midst of: setup statements or markup. -/
inductive ScanMode where
  | setup
  | markup
  deriving Repr, DecidableEq

/-- The ways in which source text can break off. -/
inductive ScanFault where
  | unterminatedString
  | unterminatedTag
  | unterminatedParen
  | unterminatedBlock
  | unterminatedReference
  | unterminatedComment
  | missingParen (after : Keyword)
  deriving Repr, DecidableEq

/-- A fault and where it is reported. -/
structure ScanError where
  fault : ScanFault
  location : Location
  deriving Repr, DecidableEq

def ScanFault.text : ScanFault → String
  | unterminatedString => "String literal was not closed"
  | unterminatedTag => "'>' is missing"
  | unterminatedParen => "Unended parenthesis ')'"
  | unterminatedBlock => "Unended block '\x7d'"
  | unterminatedReference => "Unended parameter expression"
  | unterminatedComment => "Unended comment '-->'"
  | missingParen after => "Expected '(' after " ++ after.text

def ScanError.message (e : ScanError) : String :=
  "Template Error: at " ++ e.location.text ++ " " ++ e.fault.text

namespace Source

/-- The tokens one step of the scanner finds, and where it goes on. -/
structure Scanned where
  tokens : List Token
  mode : ScanMode
  cursor : Cursor

/-- The kind of a tag, told by its first and last characters. -/
def classifyTag (tag : List Char) : TokenKind :=
  if (Text.dropPrefixIgnoringCase? "<!doctype".toList tag).isSome then .doctype
  else if "</".toList.isPrefixOf tag then .closingTag
  else if "/>".toList.isSuffixOf tag then .selfClosingTag
  else .openingTag

/-- A character of an element name. -/
def isNameChar (c : Char) : Bool :=
  isWordChar c || c == '-'

/-- The element a tag names. -/
def tagName (tag : List Char) : List Char :=
  (tag.drop 1).takeWhile isNameChar

/-- Parentheses around a condition or the head of a loop; quoted texts hide the
parentheses inside them. -/
def parens : Brackets := ⟨'(', ')', true⟩

/-- Parentheses around a reference, where quotes mean nothing. -/
def plainParens : Brackets := ⟨'(', ')', false⟩

/-- Braces around a block. In setup statements they hold script code, where quoted
texts hide braces. -/
def braces (mode : ScanMode) : Brackets := ⟨'\x7b', '\x7d', mode = .setup⟩

/-- Whether `word` stands behind the character under the cursor and ends there. -/
def atControlWord (word : String) (rest : List Char) : Bool :=
  match Text.dropPrefix? word.toList rest with
  | none => false
  | some [] => true
  | some (c :: _) => !isWordChar c

/-- The text of a call behind its `@`: a name, and parentheses in which quoted
texts hide parentheses. -/
def callText? (text : List Char) : Option (List Char) :=
  let name := text.takeWhile isWordChar
  if name = [] then none
  else
    match text.dropWhile isWordChar with
    | '(' :: inner => (enclosed? parens 0 none inner).map fun taken => name ++ '(' :: taken
    | _ => none

variable (file : String)

/-- A block of braces under the cursor; the token holds the text between them. -/
def scanBlock (mode : ScanMode) (c : Cursor) : Except ScanError (Token × Cursor) :=
  match enclosed? (braces mode) 0 none (c.rest.drop 1) with
  | none => .error ⟨.unterminatedBlock, c.location file⟩
  | some taken => .ok (c.token file .block taken.dropLast (taken.length + 1))

/-- The block that may follow, white space aside. -/
def scanOptionalBlock (mode : ScanMode) (c : Cursor) : Except ScanError (List Token × Cursor) :=
  let c := c.skipWhile isSpace
  if c.rest.head? = some '\x7b' then
    (scanBlock file mode c).map fun (token, c) => ([token], c)
  else .ok ([], c)

/-- The parenthesised text that a control word requires, without the white space
outside of quoted texts. The token's span is empty and lies behind the text. -/
def scanHead (keyword : Keyword) (kind : TokenKind) (c : Cursor) : Except ScanError (Token × Cursor) :=
  let c := c.skipWhile isSpace
  if c.rest.head? = some '(' then
    match enclosed? parens 0 none (c.rest.drop 1) with
    | none => .error ⟨.unterminatedParen, c.location file⟩
    | some taken =>
      let after := c.skip (taken.length + 1)
      .ok (after.token file kind ('(' :: dropSpaces none taken) 0)
  else .error ⟨.missingParen keyword, c.location file⟩

/-- The keyword token of a control word. -/
def scanKeyword (keyword : Keyword) (c : Cursor) : Token × Cursor :=
  c.tokenHere file (.keyword keyword) keyword.text.toList keyword.text.length

/-- A control word with its parenthesised head and, if there is one, its block. -/
def scanHeaded (keyword : Keyword) (kind : TokenKind) (mode : ScanMode) (c : Cursor) :
    Except ScanError Scanned := do
  let (word, c) := scanKeyword file keyword c
  let (head, c) ← scanHead file keyword kind c
  let (block, c) ← scanOptionalBlock file mode c
  return ⟨word :: head :: block, mode, c⟩

/-- `@else` with its block, if there is one. -/
def scanElse (mode : ScanMode) (c : Cursor) : Except ScanError Scanned := do
  let (word, c) := scanKeyword file .elseBranch c
  let (block, c) ← scanOptionalBlock file mode c
  return ⟨word :: block, mode, c⟩

/-- A tag up to its first `>`. In markup the opening tag of a raw element brings
the content of the element along as one text. -/
def scanTag (mode : ScanMode) (c : Cursor) : Except ScanError Scanned :=
  match c.rest.dropWhile (· ≠ '>') with
  | [] => .error ⟨.unterminatedTag, c.finish.location file⟩
  | _ :: _ =>
    let inner := c.rest.takeWhile (· ≠ '>')
    let tag := inner ++ ['>']
    let kind := classifyTag tag
    let (token, after) := c.token file kind tag (inner.length + 1)
    let name := (tagName tag).map Char.toLower
    if mode = .markup && kind = .openingTag && isRawElement (String.ofList name) then
      let content := beforeClosing ('<' :: '/' :: name) after.rest
      let (text, after) := after.token file .text content content.length
      .ok ⟨if content = [] then [token] else [token, text], mode, after⟩
    else .ok ⟨[token], mode, after⟩

/-- A run of word characters. In setup statements it may be a keyword, and the
word `serve` begins the markup. -/
def scanWord (mode : ScanMode) (c : Cursor) : Scanned :=
  let word := c.rest.takeWhile isWordChar
  let keyword? := if mode = .setup then Keyword.ofWord? (String.ofList word) else none
  let kind :=
    match keyword? with
    | some k => .keyword k
    | none => .text
  let (token, after) := c.token file kind word word.length
  ⟨[token], if keyword? = some .serve then .markup else mode, after⟩

/-- The character under the cursor as a token of its own. -/
def scanSingle (kind : TokenKind) (ch : Char) (mode : ScanMode) (c : Cursor) : Scanned :=
  let (token, after) := c.tokenHere file kind [ch] 1
  ⟨[token], mode, after⟩

/-- A quoted literal, kept with its quotes. -/
def scanString (quote : Char) (mode : ScanMode) (c : Cursor) : Except ScanError Scanned :=
  match closeQuote? quote (c.rest.drop 1) with
  | none => .error ⟨.unterminatedString, c.finish.location file⟩
  | some taken =>
    let (token, after) := c.token file .string (quote :: taken) (taken.length + 1)
    .ok ⟨[token], mode, after⟩

/-- A comment of markup, which leaves no token. -/
def scanComment (mode : ScanMode) (c : Cursor) : Except ScanError Scanned :=
  match Text.splitFirst? "-->".toList (c.rest.drop 4) with
  | none => .error ⟨.unterminatedComment, c.location file⟩
  | some (before, _) => .ok ⟨[], mode, c.skip (before.length + 7)⟩

/-- What an `@` begins: a reference, a control word, a call, or nothing. -/
def scanAt (mode : ScanMode) (c : Cursor) : Except ScanError Scanned :=
  let rest := c.rest.drop 1
  if rest.head? = some '(' then
    match enclosed? plainParens 0 none (rest.drop 1) with
    | none => .error ⟨.unterminatedReference, c.location file⟩
    | some taken =>
      let (token, after) := c.token file .reference ('@' :: '(' :: taken) (taken.length + 2)
      .ok ⟨[token], mode, after⟩
  else if atControlWord "if" rest then scanHeaded file .ifBranch .condition mode c
  else if atControlWord "else" rest then scanElse file mode c
  else if atControlWord "each" rest then scanHeaded file .eachItem .each mode c
  else
    match callText? rest with
    | some call =>
      let (token, after) := c.token file .call ('@' :: call) (call.length + 1)
      .ok ⟨[token], mode, after⟩
    | none => .ok (scanSingle file .unknown '@' mode c)

/-- One step of the scanner at the character `ch`. -/
def scanStep (mode : ScanMode) (ch : Char) (c : Cursor) : Except ScanError Scanned :=
  if isSpace ch then .ok (scanSingle file .blank ch mode c)
  else if ch = '#' && mode = .setup then
    .ok ⟨[], mode, c.skip ((c.rest.takeWhile (· ≠ '\n')).length + 1)⟩
  else if mode = .markup && "<!--".toList.isPrefixOf c.rest then scanComment file mode c
  else if isWordChar ch then .ok (scanWord file mode c)
  else if isQuote ch && mode = .setup then scanString file ch mode c
  else if ch = '(' then .ok (scanSingle file .openParen ch mode c)
  else if ch = ')' then .ok (scanSingle file .closeParen ch mode c)
  else if ch = '<' then scanTag file mode c
  else if ch = '@' then scanAt file mode c
  else if ch = '\x7b' && mode = .setup then do
    let (token, after) ← scanBlock file mode c
    return ⟨[token], mode, after⟩
  else .ok (scanSingle file .unknown ch mode c)

end Source

end HtmlTemplate
