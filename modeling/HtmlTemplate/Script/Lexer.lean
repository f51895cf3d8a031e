import HtmlTemplate.Script.Token
import HtmlTemplate.Text.Blank
import HtmlTemplate.Text.Letter
import HtmlTemplate.Text.Search
/-!
The lexer of script text. Positions count the characters from the beginning of the
text and go along with what is left of it.
-/
namespace HtmlTemplate.Script

/-- How many characters a block comment takes behind its beginning; all that are
left if it does not end. -/
def blockCommentLength : List Char → Nat
  | [] => 0
  | [_] => 1
  | c :: d :: rest => if c = '*' && d = '/' then 2 else blockCommentLength (d :: rest) + 1

/-- Drops blanks and comments, and tells the position behind them. -/
def skipTrivia (position : Nat) (text : List Char) : Nat × List Char :=
  let start := position + (text.takeWhile Text.isBlank).length
  match _rest : text.dropWhile Text.isBlank with
  | '/' :: '/' :: rest =>
    skipTrivia (start + 2 + (rest.takeWhile (· ≠ '\n')).length) (rest.dropWhile (· ≠ '\n'))
  | '/' :: '*' :: rest =>
    let length := blockCommentLength rest
    skipTrivia (start + 2 + length) (rest.drop length)
  | rest => (start, rest)
termination_by text.length
decreasing_by
  · have whole := Text.length_dropWhile_le Text.isBlank text
    have inner := Text.length_dropWhile_le (· ≠ '\n') rest
    simp only [_rest, List.length_cons] at whole
    omega
  · have whole := Text.length_dropWhile_le Text.isBlank text
    simp only [_rest, List.length_cons, List.length_drop] at whole ⊢
    omega

theorem length_skipTrivia_le (position : Nat) (text : List Char) :
    (skipTrivia position text).2.length ≤ text.length := by
  fun_induction skipTrivia position text with
  | case1 _ text _ rest same ih =>
    have whole := Text.length_dropWhile_le Text.isBlank text
    have inner := Text.length_dropWhile_le (· ≠ '\n') rest
    simp only [same, List.length_cons] at whole
    omega
  | case2 _ text _ rest same length ih =>
    have whole := Text.length_dropWhile_le Text.isBlank text
    simp only [same, List.length_cons, List.length_drop] at whole ih
    omega
  | case3 _ text _ _ _ =>
    exact Text.length_dropWhile_le Text.isBlank text

/-- A character a word may begin with. -/
def isWordStart (c : Char) : Bool :=
  Text.isAlphabetic c || c == '_' || c == '$'

/-- A character a word may go on with. -/
def isWordPart (c : Char) : Bool :=
  Text.isAlphanumeric c || c == '_' || c == '$'

/-- The lexeme of a word. -/
def wordLexeme (word : List Char) : Lexeme :=
  match String.ofList word with
  | "true" => .boolean true
  | "false" => .boolean false
  | "null" => .null
  | "undefined" => .undefined
  | "typeof" => .typeof
  | name => .identifier name

/-- How many characters at the front of a text are the exponent of a number. -/
def exponentLength : List Char → Nat
  | [] => 0
  | e :: rest =>
    if e = 'e' || e = 'E' then
      let sign := if rest.head? = some '+' || rest.head? = some '-' then 1 else 0
      let digits := (rest.drop sign).takeWhile Char.isDigit
      if digits = [] then 0 else 1 + sign + digits.length
    else 0

/-- How many characters at the front of a text are a number, well formed or not. -/
def numberLength (text : List Char) : Nat :=
  let mantissa := text.takeWhile fun c => c.isDigit || c == '.'
  mantissa.length + exponentLength (text.drop mantissa.length)

/-- What a backslash and the character behind it stand for in a string. -/
def unescape (quote d : Char) : List Char :=
  if d = 'n' then ['\n']
  else if d = 't' then ['\t']
  else if d = 'r' then ['\r']
  else if d = '\\' || d = quote then [d]
  else ['\\', d]

/-- The content of a string up to its closing quote, and how many characters it
takes with that quote. If the string does not end, how many characters are left
where the reader stopped: none, or a backslash. -/
def stringBody (quote : Char) : List Char → Except Nat (List Char × Nat)
  | [] => .error 0
  | c :: rest =>
    if c = quote then .ok ([], 1)
    else if c = '\\' then
      match rest with
      | [] => .error 1
      | d :: rest => (stringBody quote rest).map fun (text, n) => (unescape quote d ++ text, n + 2)
    else (stringBody quote rest).map fun (text, n) => (c :: text, n + 1)

/-- The path of a reference up to the parenthesis that closes `depth` further
pairs and the reference itself. -/
def referenceBody : (depth : Nat) → List Char → Option (List Char)
  | _, [] => none
  | depth, c :: rest =>
    if c = '(' then (referenceBody (depth + 1) rest).map (c :: ·)
    else if c = ')' then
      match depth with
      | 0 => some []
      | depth + 1 => (referenceBody depth rest).map (c :: ·)
    else (referenceBody depth rest).map (c :: ·)

/-- A lexeme at some character, how many characters beyond that one belong to it,
and how many at its front are left out of its extent. -/
structure Lexed where
  lexeme : Lexeme
  more : Nat
  lead : Nat

/-- The number at `c`. -/
def lexNumber (start : Nat) (c : Char) (rest : List Char) : Except LexError Lexed :=
  let length := numberLength (c :: rest)
  let text := (c :: rest).take length
  match readDouble? text with
  | some x => .ok ⟨.number x, length - 1, 0⟩
  | none => .error ⟨.malformedNumber (String.ofList text), ⟨start, start + length⟩⟩

/-- The string that `quote` opens. -/
def lexString (start : Nat) (quote : Char) (rest : List Char) : Except LexError Lexed :=
  match stringBody quote rest with
  | .ok (text, n) => .ok ⟨.string (String.ofList text), n, 0⟩
  | .error left => .error ⟨.unterminatedString, ⟨start, start + 1 + rest.length - left⟩⟩

/-- The symbol at `c`. -/
def lexSymbol (start : Nat) (c : Char) (rest : List Char) : Except LexError Lexed :=
  match Symbol.byLength.find? fun s => s.text.toList.isPrefixOf (c :: rest) with
  | some s => .ok ⟨.symbol s, s.text.length - 1, 0⟩
  | none => .error ⟨.unexpectedCharacter c, ⟨start, start + 1⟩⟩

/-- The lexeme at the character `c`, which stands at `start` and is neither blank
nor the beginning of a comment. An `@` before a word is left out. -/
def lexAt (start : Nat) (c : Char) (rest : List Char) : Except LexError Lexed :=
  let next := rest.head?
  if c.isDigit || (c = '.' && next.any Char.isDigit) then lexNumber start c rest
  else if c = '"' || c = '\'' || c = '\x60' then lexString start c rest
  else if c = '@' && next = some '(' then
    match referenceBody 0 (rest.drop 1) with
    | some path =>
      .ok ⟨.reference (String.ofList (Text.trim path)), path.length + 2, 0⟩
    | none => .error ⟨.unterminatedReference, ⟨start, start + 1 + rest.length⟩⟩
  else if c = '@' && next.any isWordStart then
    let word := rest.takeWhile isWordPart
    .ok ⟨wordLexeme word, word.length, 1⟩
  else if isWordStart c then
    let word := c :: rest.takeWhile isWordPart
    .ok ⟨wordLexeme word, word.length - 1, 0⟩
  -- A conditional such as `a ?.5 : 1` has no chain in it.
  else if c = '?' && next = some '.' && !(rest.drop 1).head?.any Char.isDigit then
    .ok ⟨.symbol .optionalChain, 1, 0⟩
  else lexSymbol start c rest

/-- The tokens of the rest of a text, which begins at a position. -/
def lexFrom (position : Nat) (text : List Char) : Except LexError (List Token) :=
  match _rest : skipTrivia position text with
  | (stop, []) => .ok [⟨.finish, ⟨stop, stop⟩⟩]
  | (start, c :: rest) =>
    match lexAt start c rest with
    | .error e => .error e
    | .ok found =>
      let stop := start + 1 + found.more
      (lexFrom stop (rest.drop found.more)).map (⟨found.lexeme, ⟨start + found.lead, stop⟩⟩ :: ·)
termination_by text.length
decreasing_by
  have whole := length_skipTrivia_le position text
  simp only [_rest, List.length_cons] at whole
  simp only [List.length_drop]
  omega

/-- All tokens of a script text, with `finish` as the last. -/
def tokens (source : String) : Except LexError (List Token) :=
  lexFrom 0 source.toList

end HtmlTemplate.Script
