import HtmlTemplate.Script.Parser

/-! Trees of script text written back as lexemes. Parentheses are written only where the
tree would be read differently without them: around an operand that binds less tightly than
its place asks for, and around an expression that would be taken for a block. -/
namespace HtmlTemplate.Script

/-! Trees without the extents of the text they were read from. -/

/-- The extent of nothing. -/
def Extent.nowhere : Extent :=
  ⟨0, 0⟩

mutual

/-- An expression without its extents. -/
def Expr.bare : Expr → Expr
  | .number _ x => .number .nowhere x
  | .string _ text => .string .nowhere text
  | .boolean _ b => .boolean .nowhere b
  | .null _ => .null .nowhere
  | .undefined _ => .undefined .nowhere
  | .identifier _ name => .identifier .nowhere name
  | .reference _ path => .reference .nowhere path
  | .binary _ op left right => .binary .nowhere op left.bare right.bare
  | .unary _ op operand => .unary .nowhere op operand.bare
  | .step _ op operand => .step .nowhere op operand.bare
  | .member _ object property computed optional =>
    .member .nowhere object.bare property.bare computed optional
  | .call _ callee arguments => .call .nowhere callee.bare (bareItems arguments)
  | .conditional _ condition consequent alternate =>
    .conditional .nowhere condition.bare consequent.bare alternate.bare
  | .object _ properties => .object .nowhere (bareProperties properties)
  | .array _ items => .array .nowhere (bareItems items)
  | .assign _ op target value => .assign .nowhere op target.bare value.bare

/-- The same of expressions, -/
def bareItems : List Expr → List Expr
  | [] => []
  | e :: rest => e.bare :: bareItems rest

/-- of a property, -/
def Property.bare : Property → Property
  | .mk key value shorthand => .mk key value.bare shorthand

/-- and of properties. -/
def bareProperties : List Property → List Property
  | [] => []
  | p :: rest => p.bare :: bareProperties rest

end

mutual

/-- A statement without the extents of its expressions. -/
def Statement.bare : Statement → Statement
  | .declare kind name value => .declare kind name (value.map Expr.bare)
  | .giveBack value => .giveBack (value.map Expr.bare)
  | .branch condition consequent alternate =>
    .branch condition.bare (bareStatements consequent) (bareStatements alternate)
  | .block body => .block (bareStatements body)
  | .expression e => .expression e.bare

/-- The same of statements. -/
def bareStatements : List Statement → List Statement
  | [] => []
  | s :: rest => s.bare :: bareStatements rest

end

theorem isTarget_bare (e : Expr) : e.bare.isTarget = e.isTarget := by
  cases e <;> rfl

/-! Trees that can be read from a text. -/

/-- A string, as the name behind a dot is. -/
def Expr.IsName : Expr → Prop
  | .string .. => True
  | _ => False

/-- The variable of a name. -/
def Expr.IsVariable (name : String) : Expr → Prop
  | .identifier _ found => found = name
  | _ => False

mutual

/-- An expression whose parts stand where the grammar allows them, and whose variables have
allowed names. -/
def Expr.WellFormed (allowed : String → Prop) : Expr → Prop
  | .number .. | .string .. | .boolean .. | .null _ | .undefined _ | .reference .. => True
  | .identifier _ name => allowed name
  | .binary _ _ left right => left.WellFormed allowed ∧ right.WellFormed allowed
  | .unary _ _ operand | .step _ _ operand => operand.WellFormed allowed
  | .member _ object property computed optional =>
    object.WellFormed allowed ∧
      (computed = true → property.WellFormed allowed ∧ optional = false) ∧
      (computed = false → property.IsName)
  | .call _ callee arguments => callee.WellFormed allowed ∧ WellFormedItems allowed arguments
  | .conditional _ condition consequent alternate =>
    condition.WellFormed allowed ∧ consequent.WellFormed allowed ∧ alternate.WellFormed allowed
  | .object _ properties => WellFormedProperties allowed properties
  | .array _ items => WellFormedItems allowed items
  | .assign _ _ target value =>
    target.isTarget = true ∧ target.WellFormed allowed ∧ value.WellFormed allowed

/-- The same of expressions, -/
def WellFormedItems (allowed : String → Prop) : List Expr → Prop
  | [] => True
  | e :: rest => e.WellFormed allowed ∧ WellFormedItems allowed rest

/-- of a property, which as a shorthand stands for the variable of its key, -/
def Property.WellFormed (allowed : String → Prop) : Property → Prop
  | .mk key value shorthand =>
    (shorthand = true → value.IsVariable key) ∧ (shorthand = false → value.WellFormed allowed)

/-- and of properties. -/
def WellFormedProperties (allowed : String → Prop) : List Property → Prop
  | [] => True
  | p :: rest => p.WellFormed allowed ∧ WellFormedProperties allowed rest

end

/-- The words that begin statements or go on with them. -/
def reservedWords : List String :=
  ["let", "const", "var", "return", "if", "else"]

/-- A name that begins no statement. -/
def Unreserved (name : String) : Prop :=
  name ∉ reservedWords

mutual

/-- A statement of well-formed expressions whose variables have unreserved names. -/
def Statement.WellFormed : Statement → Prop
  | .declare _ _ value | .giveBack value => ∀ e ∈ value, e.WellFormed Unreserved
  | .branch condition consequent alternate =>
    condition.WellFormed Unreserved ∧ WellFormedStatements consequent ∧
      WellFormedStatements alternate
  | .block body => WellFormedStatements body
  | .expression e => e.WellFormed Unreserved

/-- The same of statements. -/
def WellFormedStatements : List Statement → Prop
  | [] => True
  | s :: rest => s.WellFormed ∧ WellFormedStatements rest

end

/-! Spelling. -/

def BinaryOp.symbol : BinaryOp → Symbol
  | add => .plus
  | sub => .minus
  | mul => .star
  | div => .slash
  | mod => .percent
  | eq => .eqEq
  | neq => .notEq
  | strictEq => .strictEq
  | strictNeq => .strictNotEq
  | lt => .lt
  | gt => .gt
  | lte => .lte
  | gte => .gte
  | and => .and
  | or => .or
  | nullish => .questionQuestion

def UnaryOp.lexeme : UnaryOp → Lexeme
  | not => .symbol .not
  | neg => .symbol .minus
  | plus => .symbol .plus
  | typeof => .typeof

def StepOp.symbol : StepOp → Symbol
  | increment => .plusPlus
  | decrement => .minusMinus

def AssignOp.symbol : AssignOp → Symbol
  | assign => .eq
  | addAssign => .plusEq
  | subAssign => .minusEq
  | mulAssign => .starEq
  | divAssign => .slashEq

def Declaration.word : Declaration → String
  | .letVariable => "let"
  | .constant => "const"
  | .variable => "var"

@[simp] theorem BinaryOp.ofSymbol?_symbol (op : BinaryOp) : ofSymbol? op.symbol = some op := by
  cases op <;> rfl

@[simp] theorem UnaryOp.ofLexeme?_lexeme (op : UnaryOp) : ofLexeme? op.lexeme = some op := by
  cases op <;> rfl

@[simp] theorem AssignOp.ofSymbol?_symbol (op : AssignOp) : ofSymbol? op.symbol = some op := by
  cases op <;> rfl

@[simp] theorem Declaration.ofWord?_word (kind : Declaration) : ofWord? kind.word = some kind := by
  cases kind <;> rfl

/-- Whether a text can be read as one word. -/
def isWord : List Char → Bool
  | [] => false
  | c :: rest => isWordStart c && rest.all isWordPart

/-- A key as a word where it is one, and as a string otherwise. -/
def keyLexeme (key : String) : Lexeme :=
  match wordLexeme key.toList with
  | .identifier name => if isWord key.toList then .identifier name else .string key
  | _ => .string key

theorem wordLexeme_eq_identifier {word : List Char} {name : String}
    (h : wordLexeme word = .identifier name) : name = String.ofList word := by
  unfold wordLexeme at h
  split at h <;> cases h
  rfl

@[simp] theorem propertyKey?_keyLexeme (key : String) : propertyKey? (keyLexeme key) = some key := by
  unfold keyLexeme
  split
  · next name hName =>
    split
    · rw [propertyKey?, wordLexeme_eq_identifier hName, String.ofList_toList]
    · rfl
  · rfl

/-! Printing. -/

/-- How tightly the parts of an expression are held together: 0 for assignments and
conditional expressions, from 2 to 8 for the binary operators by precedence, 9 for the other
operators, and 10 for what needs none. -/
def Expr.level : Expr → Nat
  | .assign .. | .conditional .. => 0
  | .binary _ op .. => op.precedence + 1
  | .unary .. | .step .. => 9
  | _ => 10

theorem level_of_isTarget {e : Expr} (h : e.isTarget = true) : e.level = 10 := by
  cases e <;> first | rfl | simp [Expr.isTarget] at h

/-- Some lexemes, between parentheses if these are asked for. -/
def enclose (asked : Bool) (lexemes : List Lexeme) : List Lexeme :=
  if asked then .symbol .openParen :: (lexemes ++ [.symbol .closeParen]) else lexemes

/-- The text of a string, as the name behind a dot. -/
def Expr.name : Expr → String
  | .string _ text => text
  | _ => ""

mutual

/-- An expression as lexemes. -/
def Expr.print : Expr → List Lexeme
  | .number _ x => [.number x]
  | .string _ text => [.string text]
  | .boolean _ b => [.boolean b]
  | .null _ => [.null]
  | .undefined _ => [.undefined]
  | .identifier _ name => [.identifier name]
  | .reference _ path => [.reference path]
  | .binary _ op left right =>
    enclose (left.level < op.precedence + 1) left.print ++ .symbol op.symbol ::
      enclose (right.level < op.precedence + 2) right.print
  | .unary _ op operand => op.lexeme :: enclose (operand.level < 9) operand.print
  | .step _ op operand => enclose (operand.level < 10) operand.print ++ [.symbol op.symbol]
  | .member _ object property computed optional =>
    enclose (object.level < 10) object.print ++
      if computed then .symbol .openBracket :: (property.print ++ [.symbol .closeBracket])
      else [.symbol (if optional then .optionalChain else .dot), wordLexeme property.name.toList]
  | .call _ callee arguments =>
    enclose (callee.level < 10) callee.print ++ .symbol .openParen ::
      (printItems arguments ++ [.symbol .closeParen])
  | .conditional _ condition consequent alternate =>
    enclose (condition.level < 2) condition.print ++ .symbol .question ::
      (consequent.print ++ .symbol .colon :: alternate.print)
  | .object _ properties =>
    .symbol .openBrace :: (printProperties properties ++ [.symbol .closeBrace])
  | .array _ items => .symbol .openBracket :: (printItems items ++ [.symbol .closeBracket])
  | .assign _ op target value => target.print ++ .symbol op.symbol :: value.print

/-- Expressions separated by commas. -/
def printItems : List Expr → List Lexeme
  | [] => []
  | [e] => e.print
  | e :: next :: rest => e.print ++ .symbol .comma :: printItems (next :: rest)

/-- A property: its key, and its value if it is no shorthand. -/
def Property.print : Property → List Lexeme
  | .mk key value shorthand =>
    keyLexeme key :: if shorthand then [] else .symbol .colon :: value.print

/-- Properties separated by commas. -/
def printProperties : List Property → List Lexeme
  | [] => []
  | [p] => p.print
  | p :: next :: rest => p.print ++ .symbol .comma :: printProperties (next :: rest)

end

/-- An expression where at least some level is asked for. -/
def Expr.printAt (level : Nat) (e : Expr) : List Lexeme :=
  enclose (e.level < level) e.print

/-- An expression where a statement begins. -/
def Expr.printApart (e : Expr) : List Lexeme :=
  enclose (e.print.head? = some (.symbol .openBrace)) e.print

mutual

/-- A statement as lexemes. -/
def Statement.print : Statement → List Lexeme
  | .declare kind name none =>
    [.identifier kind.word, .identifier name, .symbol .semicolon]
  | .declare kind name (some value) =>
    .identifier kind.word :: .identifier name :: .symbol .eq :: (value.print ++ [.symbol .semicolon])
  | .giveBack none => [.identifier "return", .symbol .semicolon]
  | .giveBack (some value) => .identifier "return" :: (value.print ++ [.symbol .semicolon])
  | .branch condition consequent alternate =>
    .identifier "if" :: .symbol .openParen :: (condition.print ++ .symbol .closeParen ::
      .symbol .openBrace :: (printStatements consequent ++ .symbol .closeBrace ::
        printElse alternate))
  | .block body => .symbol .openBrace :: (printStatements body ++ [.symbol .closeBrace])
  | .expression e => e.printApart ++ [.symbol .semicolon]

/-- The block behind an `else`, which is left out with it if there is nothing in it. -/
def printElse : List Statement → List Lexeme
  | [] => []
  | first :: rest =>
    .identifier "else" :: .symbol .openBrace ::
      ((first.print ++ printStatements rest) ++ [.symbol .closeBrace])

/-- Statements one after the other. -/
def printStatements : List Statement → List Lexeme
  | [] => []
  | s :: rest => s.print ++ printStatements rest

end

/-! What the text of an expression begins with. -/

/-- A lexeme that an expression can begin with, if the variables in it have allowed names. -/
def Lexeme.Opens (allowed : String → Prop) : Lexeme → Prop
  | .identifier name => allowed name
  | .symbol s => s ∈ [.not, .minus, .plus, .openParen, .openBracket, .openBrace]
  | .finish => False
  | _ => True

/-- Lexemes that begin so. -/
def Opening (allowed : String → Prop) (lexemes : List Lexeme) : Prop :=
  ∃ first rest, lexemes = first :: rest ∧ first.Opens allowed

section

variable {allowed : String → Prop} {lexemes more : List Lexeme}

theorem opening_cons {first : Lexeme} (h : first.Opens allowed) : Opening allowed (first :: more) :=
  ⟨first, more, rfl, h⟩

theorem Opening.append (h : Opening allowed lexemes) : Opening allowed (lexemes ++ more) := by
  obtain ⟨first, rest, rfl, hFirst⟩ := h
  exact opening_cons hFirst

theorem Opening.enclose (h : Opening allowed lexemes) (asked : Bool) :
    Opening allowed (enclose asked lexemes) := by
  cases asked with
  | false => exact h
  | true => exact opening_cons (by simp [Lexeme.Opens])

theorem UnaryOp.opens_lexeme (op : UnaryOp) : op.lexeme.Opens allowed := by
  cases op <;> simp [lexeme, Lexeme.Opens]

theorem opening_print {e : Expr} (h : e.WellFormed allowed) : Opening allowed e.print := by
  cases e with
  | binary _ op left right =>
      simp only [Expr.print]
      exact ((opening_print h.1).enclose _).append
  | unary _ op operand => exact opening_cons op.opens_lexeme
  | step _ op operand =>
      simp only [Expr.print]
      exact ((opening_print (e := operand) h).enclose _).append
  | member _ object property computed optional =>
      simp only [Expr.print]
      exact ((opening_print h.1).enclose _).append
  | call _ callee arguments =>
      simp only [Expr.print]
      exact ((opening_print h.1).enclose _).append
  | conditional _ condition consequent alternate =>
      simp only [Expr.print]
      exact ((opening_print h.1).enclose _).append
  | assign _ op target value =>
      simp only [Expr.print]
      exact (opening_print h.2.1).append
  | identifier _ name => exact opening_cons h
  | object _ properties => exact opening_cons (by simp [Lexeme.Opens])
  | array _ items => exact opening_cons (by simp [Lexeme.Opens])
  | _ => exact opening_cons trivial

end

end HtmlTemplate.Script
