import HtmlTemplate.Script.Lexer
import HtmlTemplate.Script.Tree
/-!
The parser of script text: recursive descent, with operators by precedence. Every
parser gives the tokens it leaves together with a proof that they are fewer than
those it was given, which is why the descent ends.
-/
namespace HtmlTemplate.Script

/-- How a lexeme is named in messages. -/
def Lexeme.kindName : Lexeme → String
  | .number _ => "Number"
  | .string _ => "String"
  | .boolean _ => "Boolean"
  | .null => "Null"
  | .undefined => "Undefined"
  | .identifier _ => "Identifier"
  | .typeof => "Typeof"
  | .reference _ => "ParamRef"
  | .finish => "Eof"
  | .symbol s =>
    match s with
    | .plus => "Plus" | .minus => "Minus" | .star => "Star" | .slash => "Slash"
    | .percent => "Percent" | .eqEq => "EqEq" | .notEq => "NotEq" | .strictEq => "StrictEq"
    | .strictNotEq => "StrictNotEq" | .lt => "Lt" | .gt => "Gt" | .lte => "Lte" | .gte => "Gte"
    | .and => "And" | .or => "Or" | .not => "Not" | .questionQuestion => "QuestionQuestion"
    | .eq => "Eq" | .plusEq => "PlusEq" | .minusEq => "MinusEq" | .starEq => "StarEq"
    | .slashEq => "SlashEq" | .plusPlus => "PlusPlus" | .minusMinus => "MinusMinus"
    | .openParen => "LParen" | .closeParen => "RParen" | .openBracket => "LBracket"
    | .closeBracket => "RBracket" | .openBrace => "LBrace" | .closeBrace => "RBrace"
    | .dot => "Dot" | .comma => "Comma" | .colon => "Colon" | .semicolon => "Semicolon"
    | .question => "Question" | .optionalChain => "OptionalChain"

/-- Why a script text is no expression or statement list. -/
inductive ParseError where
  | lexical (error : LexError)
  | unexpected (found : Lexeme) (expected : String) (extent : Extent)
  | invalidTarget (extent : Extent)
  deriving Repr, DecidableEq

def ParseError.message : ParseError → String
  | lexical error => error.message
  | unexpected found expected extent =>
    "Unexpected token " ++ found.kindName ++ " at position " ++ toString extent.start ++
      ", expected " ++ expected
  | invalidTarget extent => "Invalid assignment target at position " ++ toString extent.start

/-- The characters an error concerns. -/
def ParseError.extent : ParseError → Extent
  | lexical error => error.extent
  | unexpected _ _ extent => extent
  | invalidTarget extent => extent

/-- What a parser read and the tokens it left, fewer than `bound`. -/
structure Parsed (bound : Nat) (α : Type) where
  value : α
  rest : List Token
  within : rest.length < bound

/-- The error at the first of some tokens. The tokens of a text end with `finish`,
which no parser takes, so that there is a first one. -/
def unexpected {α : Type} (ts : List Token) (expected : String) : Except ParseError α :=
  match ts with
  | [] => .error (.unexpected .finish expected ⟨0, 0⟩)
  | t :: _ => .error (.unexpected t.lexeme expected t.extent)

/-- Takes one symbol and gives its extent. -/
def expect (s : Symbol) (expected : String) (ts : List Token) :
    Except ParseError (Parsed ts.length Extent) :=
  match ts with
  | ⟨.symbol found, extent⟩ :: rest =>
    if found = s then .ok ⟨extent, rest, Nat.lt_succ_self _⟩
    else unexpected (⟨.symbol found, extent⟩ :: rest) expected
  | ts => unexpected ts expected

/-- Takes a symbol if it stands first. -/
def eat? (s : Symbol) (ts : List Token) : Option (Parsed ts.length Extent) :=
  match ts with
  | ⟨.symbol found, extent⟩ :: rest =>
    if found = s then some ⟨extent, rest, Nat.lt_succ_self _⟩ else none
  | _ => none

/-- The first symbol, if a symbol stands first. -/
def symbol? (ts : List Token) : Option (Parsed ts.length Symbol) :=
  match ts with
  | ⟨.symbol s, _⟩ :: rest => some ⟨s, rest, Nat.lt_succ_self _⟩
  | _ => none

/-- The word behind a dot: any name, the literal words among them. -/
def propertyName (ts : List Token) : Except ParseError (Parsed ts.length Expr) :=
  match ts with
  | ⟨lexeme, extent⟩ :: rest =>
    let name? :=
      match lexeme with
      | .identifier name => some name
      | .boolean b => some (if b then "true" else "false")
      | .null => some "null"
      | .undefined => some "undefined"
      | .typeof => some "typeof"
      | _ => none
    match name? with
    | some name => .ok ⟨.string extent name, rest, Nat.lt_succ_self _⟩
    | none => unexpected (⟨lexeme, extent⟩ :: rest) "a property name"
  | [] => unexpected [] "a property name"

/-- The key of a property: a name, a string, or a number as it is displayed. -/
def propertyKey? : Lexeme → Option String
  | .identifier name => some name
  | .string text => some text
  | .number x => some (Double.text x)
  | _ => none

/-- A member of an object, over the extents of both. -/
def Expr.memberOf (object property : Expr) (computed optional : Bool) : Expr :=
  .member (object.extent.cover property.extent) object property computed optional

mutual

/-- An expression: a conditional one, or an assignment, which associates to the
right. -/
def assignment (ts : List Token) : Except ParseError (Parsed ts.length Expr) := do
  let ⟨target, rest, left⟩ ← conditional ts
  match symbol? rest with
  | none => return ⟨target, rest, left⟩
  | some ⟨s, more, less⟩ =>
    match AssignOp.ofSymbol? s with
    | none => return ⟨target, rest, left⟩
    | some op =>
      if target.isTarget then
        let ⟨value, rest', less'⟩ ← assignment more
        return ⟨.assign (target.extent.cover value.extent) op target value, rest', by omega⟩
      else throw (.invalidTarget target.extent)
termination_by (ts.length, 6)

/-- `condition ? consequent : alternate`, or the condition alone. -/
def conditional (ts : List Token) : Except ParseError (Parsed ts.length Expr) := do
  let ⟨condition, rest, left⟩ ← binary 0 ts
  match eat? .question rest with
  | none => return ⟨condition, rest, left⟩
  | some ⟨_, rest₁, less₁⟩ =>
    let ⟨consequent, rest₂, less₂⟩ ← assignment rest₁
    let ⟨_, rest₃, less₃⟩ ← expect .colon "':' in conditional" rest₂
    let ⟨alternate, rest₄, less₄⟩ ← assignment rest₃
    return ⟨.conditional (condition.extent.cover alternate.extent) condition consequent alternate,
      rest₄, by omega⟩
termination_by (ts.length, 5)

/-- Operands joined by operators that bind tighter than `level`. -/
def binary (level : Nat) (ts : List Token) : Except ParseError (Parsed ts.length Expr) := do
  let ⟨left, rest, less⟩ ← unary ts
  let ⟨whole, rest', less'⟩ ← operators level left rest
  return ⟨whole, rest', by omega⟩
termination_by (ts.length, 4)

/-- The operators that follow an operand, as long as they bind tighter than
`level`; they associate to the left. -/
def operators (level : Nat) (left : Expr) (ts : List Token) :
    Except ParseError (Parsed (ts.length + 1) Expr) :=
  match symbol? ts with
  | none => return ⟨left, ts, Nat.lt_succ_self _⟩
  | some ⟨s, rest, less⟩ =>
    match BinaryOp.ofSymbol? s with
    | none => return ⟨left, ts, Nat.lt_succ_self _⟩
    | some op =>
      if op.precedence ≤ level then return ⟨left, ts, Nat.lt_succ_self _⟩
      else do
        let ⟨right, rest₁, less₁⟩ ← binary op.precedence rest
        let whole := Expr.binary (left.extent.cover right.extent) op left right
        let ⟨all, rest₂, less₂⟩ ← operators level whole rest₁
        return ⟨all, rest₂, by omega⟩
termination_by (ts.length, 0)

/-- An operand with the operators before it. -/
def unary (ts : List Token) : Except ParseError (Parsed ts.length Expr) :=
  match ts with
  | [] => do
    let ⟨e, rest, less⟩ ← postfixed []
    return ⟨e, rest, less⟩
  | t :: rest =>
    match UnaryOp.ofLexeme? t.lexeme with
    | none => postfixed (t :: rest)
    | some op => do
      let ⟨operand, rest', less⟩ ← unary rest
      return ⟨.unary (t.extent.cover operand.extent) op operand, rest', Nat.lt_succ_of_lt less⟩
termination_by (ts.length, 3)

/-- An operand with what follows it: members, calls, a step. -/
def postfixed (ts : List Token) : Except ParseError (Parsed ts.length Expr) := do
  let ⟨operand, rest, less⟩ ← primary ts
  let ⟨whole, rest', less'⟩ ← suffixes operand rest
  return ⟨whole, rest', by omega⟩
termination_by (ts.length, 2)

/-- The members, calls and the step that follow an operand. -/
def suffixes (operand : Expr) (ts : List Token) :
    Except ParseError (Parsed (ts.length + 1) Expr) :=
  match ts with
  | ⟨.symbol s, extent⟩ :: rest =>
    match s with
    | .dot | .optionalChain => do
      let ⟨property, rest₁, less₁⟩ ← propertyName rest
      let whole := operand.memberOf property false (s = .optionalChain)
      let ⟨all, rest₂, less₂⟩ ← suffixes whole rest₁
      return ⟨all, rest₂, by simp only [List.length_cons]; omega⟩
    | .openBracket => do
      let ⟨property, rest₁, less₁⟩ ← assignment rest
      let ⟨_, rest₂, less₂⟩ ← expect .closeBracket "']'" rest₁
      let whole := operand.memberOf property true false
      let ⟨all, rest₃, less₃⟩ ← suffixes whole rest₂
      return ⟨all, rest₃, by simp only [List.length_cons]; omega⟩
    | .openParen => do
      let ⟨(arguments, last), rest₁, less₁⟩ ← items .closeParen rest
      let whole := Expr.call (operand.extent.cover last) operand arguments
      let ⟨all, rest₂, less₂⟩ ← suffixes whole rest₁
      return ⟨all, rest₂, by simp only [List.length_cons]; omega⟩
    | .plusPlus =>
      return ⟨.step (operand.extent.cover extent) .increment operand, rest, by simp only [List.length_cons]; omega⟩
    | .minusMinus =>
      return ⟨.step (operand.extent.cover extent) .decrement operand, rest, by simp only [List.length_cons]; omega⟩
    | s => return ⟨operand, ⟨.symbol s, extent⟩ :: rest, by simp⟩
  | ts => return ⟨operand, ts, Nat.lt_succ_self _⟩
termination_by (ts.length, 0)

/-- A literal, a name, a reference, or something between brackets. -/
def primary (ts : List Token) : Except ParseError (Parsed ts.length Expr) :=
  match ts with
  | [] => unexpected [] "an expression"
  | ⟨lexeme, extent⟩ :: rest =>
    match lexeme with
    | .number x => return ⟨.number extent x, rest, Nat.lt_succ_self _⟩
    | .string text => return ⟨.string extent text, rest, Nat.lt_succ_self _⟩
    | .reference path => return ⟨.reference extent path, rest, Nat.lt_succ_self _⟩
    | .boolean b => return ⟨.boolean extent b, rest, Nat.lt_succ_self _⟩
    | .null => return ⟨.null extent, rest, Nat.lt_succ_self _⟩
    | .undefined => return ⟨.undefined extent, rest, Nat.lt_succ_self _⟩
    | .identifier name => return ⟨.identifier extent name, rest, Nat.lt_succ_self _⟩
    | .symbol .openParen => do
      let ⟨inner, rest₁, less₁⟩ ← assignment rest
      let ⟨_, rest₂, less₂⟩ ← expect .closeParen "')'" rest₁
      return ⟨inner, rest₂, by simp only [List.length_cons]; omega⟩
    | .symbol .openBracket => do
      let ⟨(elements, last), rest₁, less₁⟩ ← items .closeBracket rest
      return ⟨.array (extent.cover last) elements, rest₁, Nat.lt_succ_of_lt less₁⟩
    | .symbol .openBrace => do
      let ⟨(properties, last), rest₁, less₁⟩ ← properties rest
      return ⟨.object (extent.cover last) properties, rest₁, Nat.lt_succ_of_lt less₁⟩
    | lexeme => unexpected (⟨lexeme, extent⟩ :: rest) "an expression"
termination_by (ts.length, 1)

/-- Expressions separated by commas up to the symbol `close`, whose extent is
given too. A comma may stand behind the last one. -/
def items (close : Symbol) (ts : List Token) :
    Except ParseError (Parsed ts.length (List Expr × Extent)) :=
  match eat? close ts with
  | some ⟨last, rest, less⟩ => return ⟨([], last), rest, less⟩
  | none => do
    let ⟨item, rest₁, less₁⟩ ← assignment ts
    match eat? .comma rest₁ with
    | some ⟨_, rest₂, less₂⟩ =>
      let ⟨(more, last), rest₃, less₃⟩ ← items close rest₂
      return ⟨(item :: more, last), rest₃, by omega⟩
    | none =>
      let ⟨last, rest₂, less₂⟩ ← expect close "closing delimiter" rest₁
      return ⟨([item], last), rest₂, by omega⟩
termination_by (ts.length, 7)

/-- Properties separated by commas up to the closing brace, whose extent is given
too. -/
def properties (ts : List Token) :
    Except ParseError (Parsed ts.length (List Property × Extent)) :=
  match eat? .closeBrace ts with
  | some ⟨last, rest, less⟩ => return ⟨([], last), rest, less⟩
  | none => do
    let ⟨item, rest₁, less₁⟩ ← property ts
    match eat? .comma rest₁ with
    | some ⟨_, rest₂, less₂⟩ =>
      let ⟨(more, last), rest₃, less₃⟩ ← properties rest₂
      return ⟨(item :: more, last), rest₃, by omega⟩
    | none =>
      let ⟨last, rest₂, less₂⟩ ← expect .closeBrace "closing delimiter" rest₁
      return ⟨([item], last), rest₂, by omega⟩
termination_by (ts.length, 8)

/-- A property of an object: a key with its value, or a key alone. -/
def property (ts : List Token) : Except ParseError (Parsed ts.length Property) :=
  match ts with
  | [] => unexpected [] "a property name"
  | ⟨lexeme, extent⟩ :: rest =>
    match propertyKey? lexeme with
    | none => unexpected (⟨lexeme, extent⟩ :: rest) "a property name"
    | some key =>
      match eat? .colon rest with
      | some ⟨_, rest₁, less₁⟩ => do
        let ⟨value, rest₂, less₂⟩ ← assignment rest₁
        return ⟨.mk key value false, rest₂, by simp only [List.length_cons]; omega⟩
      | none => return ⟨.mk key (.identifier extent key) true, rest, Nat.lt_succ_self _⟩
termination_by (ts.length, 7)

end

/-- Takes a semicolon if one stands first. -/
def skipSemicolon {bound : Nat} {α : Type} (p : Parsed bound α) : Parsed bound α :=
  match eat? .semicolon p.rest with
  | some ⟨_, rest, less⟩ => ⟨p.value, rest, Nat.lt_trans less p.within⟩
  | none => p

/-- Whether no expression can follow a `return`. -/
def atStatementEnd (ts : List Token) : Bool :=
  match ts with
  | ⟨.symbol .semicolon, _⟩ :: _ | ⟨.symbol .closeBrace, _⟩ :: _ | ⟨.finish, _⟩ :: _ => true
  | _ => false

/-- The variables a declaration introduces, separated by commas. -/
def declarations (kind : Declaration) (ts : List Token) :
    Except ParseError (Parsed ts.length (List Statement)) :=
  match ts with
  | ⟨.identifier name, _⟩ :: rest => do
    let ⟨value, rest₁, less₁⟩ ←
      match eat? .eq rest with
      | some ⟨_, rest₁, less₁⟩ => do
        let ⟨value, rest₂, less₂⟩ ← assignment rest₁
        pure (⟨some value, rest₂, by omega⟩ : Parsed (rest.length + 1) (Option Expr))
      | none => pure ⟨none, rest, Nat.lt_succ_self _⟩
    match eat? .comma rest₁ with
    | some ⟨_, rest₂, less₂⟩ =>
      let ⟨more, rest₃, less₃⟩ ← declarations kind rest₂
      return ⟨.declare kind name value :: more, rest₃, by simp only [List.length_cons]; omega⟩
    | none => return ⟨[.declare kind name value], rest₁, less₁⟩
  | ts => unexpected ts "a binding name"
termination_by ts.length
decreasing_by simp only [List.length_cons]; omega

/-- A declaration is a statement, a block of them if it introduces several
variables. -/
def declarationStatement : List Statement → Statement
  | [single] => single
  | several => .block several

/-- Whether a word stands first. -/
def word? (ts : List Token) : Option (Parsed ts.length String) :=
  match ts with
  | ⟨.identifier name, _⟩ :: rest => some ⟨name, rest, Nat.lt_succ_self _⟩
  | _ => none

mutual

/-- One statement, or the empty one. -/
def statement (ts : List Token) : Except ParseError (Parsed ts.length (Option Statement)) :=
  match eat? .semicolon ts with
  | some ⟨_, rest, less⟩ => return ⟨none, rest, less⟩
  | none =>
    match eat? .openBrace ts with
    | some ⟨_, rest, less⟩ => do
      let ⟨body, rest', less'⟩ ← block rest
      return ⟨some (.block body), rest', by omega⟩
    | none =>
      match word? ts with
      | some ⟨"return", rest, less⟩ =>
        if atStatementEnd rest then return skipSemicolon ⟨some (.giveBack none), rest, less⟩
        else do
          let ⟨value, rest', less'⟩ ← assignment rest
          return skipSemicolon ⟨some (.giveBack (some value)), rest', by omega⟩
      | some ⟨"if", rest, less⟩ => do
        let ⟨_, rest₁, less₁⟩ ← expect .openParen "'(' after if" rest
        let ⟨condition, rest₂, less₂⟩ ← assignment rest₁
        let ⟨_, rest₃, less₃⟩ ← expect .closeParen "')' after condition" rest₂
        let ⟨consequent, rest₄, less₄⟩ ← branch rest₃
        match word? rest₄ with
        | some ⟨"else", rest₅, less₅⟩ =>
          let ⟨alternate, rest₆, less₆⟩ ← branch rest₅
          return ⟨some (.branch condition consequent alternate), rest₆, by omega⟩
        | _ => return ⟨some (.branch condition consequent []), rest₄, by omega⟩
      | some ⟨name, rest, less⟩ =>
        match Declaration.ofWord? name with
        | some kind => do
          let ⟨declared, rest', less'⟩ ← declarations kind rest
          return skipSemicolon ⟨some (declarationStatement declared), rest', by omega⟩
        | none => do
          let ⟨e, rest', less'⟩ ← assignment ts
          return skipSemicolon ⟨some (.expression e), rest', less'⟩
      | none => do
        let ⟨e, rest', less'⟩ ← assignment ts
        return skipSemicolon ⟨some (.expression e), rest', less'⟩
termination_by (ts.length, 0)

/-- What an `if` or `else` governs: a block in braces or a single statement. -/
def branch (ts : List Token) : Except ParseError (Parsed ts.length (List Statement)) :=
  match eat? .openBrace ts with
  | some ⟨_, rest, less⟩ => do
    let ⟨body, rest', less'⟩ ← block rest
    return ⟨body, rest', by omega⟩
  | none => do
    let ⟨single, rest, less⟩ ← statement ts
    return ⟨single.toList, rest, less⟩
termination_by (ts.length, 1)

/-- The statements up to the brace that closes a block, which is taken too. -/
def block (ts : List Token) : Except ParseError (Parsed ts.length (List Statement)) :=
  match eat? .closeBrace ts with
  | some ⟨_, rest, less⟩ => return ⟨[], rest, less⟩
  | none =>
    if ts.head?.map (·.lexeme) = some .finish then unexpected ts "'\x7d'"
    else do
      let ⟨first, rest, less⟩ ← statement ts
      let ⟨others, rest', less'⟩ ← block rest
      return ⟨first.toList ++ others, rest', by omega⟩
termination_by (ts.length, 1)

end

/-- Statements up to the end of the text. -/
def statements (ts : List Token) : Except ParseError (List Statement) :=
  if ts.head?.map (·.lexeme) = some .finish then return []
  else do
    let ⟨first, rest, _less⟩ ← statement ts
    return first.toList ++ (← statements rest)
termination_by ts.length

/-- The tokens of a script text, for the parser. -/
def parserTokens (source : String) : Except ParseError (List Token) :=
  (tokens source).mapError .lexical

/-- Reads a whole text as one expression. -/
def Expr.parse (source : String) : Except ParseError Expr := do
  let ts ← parserTokens source
  let ⟨e, rest, _⟩ ← assignment ts
  match rest with
  | ⟨.finish, _⟩ :: _ => return e
  | rest => unexpected rest "end of expression"

/-- Reads a whole text as a list of statements. -/
def Statement.parseAll (source : String) : Except ParseError (List Statement) := do
  statements (← parserTokens source)

end HtmlTemplate.Script
