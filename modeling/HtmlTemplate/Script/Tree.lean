import HtmlTemplate.Script.Token
/-!
The trees of script text: expressions and the statements of function bodies. Each
expression carries the extent of the text it was read from; parentheses leave no
node.
-/
namespace HtmlTemplate.Script

inductive BinaryOp where
  | add | sub | mul | div | mod
  | eq | neq | strictEq | strictNeq
  | lt | gt | lte | gte
  | and | or | nullish
  deriving Repr, DecidableEq

/-- How tightly an operator binds; the greater binds tighter. -/
def BinaryOp.precedence : BinaryOp → Nat
  | nullish => 1
  | or => 2
  | and => 3
  | eq | neq | strictEq | strictNeq => 4
  | lt | gt | lte | gte => 5
  | add | sub => 6
  | mul | div | mod => 7

/-- The binary operator a symbol stands for between two operands. -/
def BinaryOp.ofSymbol? : Symbol → Option BinaryOp
  | .plus => some add
  | .minus => some sub
  | .star => some mul
  | .slash => some div
  | .percent => some mod
  | .eqEq => some eq
  | .notEq => some neq
  | .strictEq => some strictEq
  | .strictNotEq => some strictNeq
  | .lt => some lt
  | .gt => some gt
  | .lte => some lte
  | .gte => some gte
  | .and => some and
  | .or => some or
  | .questionQuestion => some nullish
  | _ => none

inductive UnaryOp where
  | not | neg | plus | typeof
  deriving Repr, DecidableEq

/-- The unary operator a lexeme stands for before an operand. -/
def UnaryOp.ofLexeme? : Lexeme → Option UnaryOp
  | .symbol .not => some not
  | .symbol .minus => some neg
  | .symbol .plus => some plus
  | .typeof => some typeof
  | _ => none

/-- The operators that count a variable up or down and give its old value. -/
inductive StepOp where
  | increment | decrement
  deriving Repr, DecidableEq

inductive AssignOp where
  | assign | addAssign | subAssign | mulAssign | divAssign
  deriving Repr, DecidableEq

/-- The assignment a symbol stands for. -/
def AssignOp.ofSymbol? : Symbol → Option AssignOp
  | .eq => some assign
  | .plusEq => some addAssign
  | .minusEq => some subAssign
  | .starEq => some mulAssign
  | .slashEq => some divAssign
  | _ => none

/-- The operator a compound assignment applies to the old value. -/
def AssignOp.binary? : AssignOp → Option BinaryOp
  | assign => none
  | addAssign => some .add
  | subAssign => some .sub
  | mulAssign => some .mul
  | divAssign => some .div

mutual

/-- An expression. The property of a member is an expression of its own: a string
behind a dot, anything between brackets (`computed`). -/
inductive Expr where
  | number (extent : Extent) (x : Float)
  | string (extent : Extent) (text : String)
  | boolean (extent : Extent) (b : Bool)
  | null (extent : Extent)
  | undefined (extent : Extent)
  | identifier (extent : Extent) (name : String)
  | reference (extent : Extent) (path : String)
  | binary (extent : Extent) (op : BinaryOp) (left right : Expr)
  | unary (extent : Extent) (op : UnaryOp) (operand : Expr)
  | step (extent : Extent) (op : StepOp) (operand : Expr)
  | member (extent : Extent) (object property : Expr) (computed optional : Bool)
  | call (extent : Extent) (callee : Expr) (arguments : List Expr)
  | conditional (extent : Extent) (condition consequent alternate : Expr)
  | object (extent : Extent) (properties : List Property)
  | array (extent : Extent) (items : List Expr)
  | assign (extent : Extent) (op : AssignOp) (target value : Expr)

/-- A property of an object expression. A shorthand stands for the variable of its
own name. -/
inductive Property where
  | mk (key : String) (value : Expr) (shorthand : Bool)

end

/-- The extent of the text an expression was read from. -/
def Expr.extent : Expr → Extent
  | .number e _ | .string e _ | .boolean e _ | .null e | .undefined e | .identifier e _
  | .reference e _ | .binary e .. | .unary e .. | .step e .. | .member e .. | .call e ..
  | .conditional e .. | .object e _ | .array e _ | .assign e .. => e

/-- Whether an expression may stand on the left of an assignment. -/
def Expr.isTarget : Expr → Bool
  | .identifier .. | .member .. => true
  | _ => false

/-- How a variable was declared. -/
inductive Declaration where
  | letVariable
  | constant
  | variable
  deriving Repr, DecidableEq

/-- The declaration a word begins. -/
def Declaration.ofWord? : String → Option Declaration
  | "let" => some .letVariable
  | "const" => some .constant
  | "var" => some .variable
  | _ => none

/-- A statement of a function body. -/
inductive Statement where
  | declare (kind : Declaration) (name : String) (value : Option Expr)
  | giveBack (value : Option Expr)
  | branch (condition : Expr) (consequent alternate : List Statement)
  | block (body : List Statement)
  | expression (e : Expr)

instance : Inhabited Expr := ⟨.null ⟨0, 0⟩⟩

end HtmlTemplate.Script
