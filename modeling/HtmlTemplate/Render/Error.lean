import HtmlTemplate.Component.Resolver
import HtmlTemplate.Markup.Asset
import HtmlTemplate.Script.EvalError
import HtmlTemplate.Source.Scanner
/-!
Why a template cannot be rendered. The causes are kept apart from their wording,
which is settled in the `message` functions.
-/
namespace HtmlTemplate

/-- The name under which a loop gives the number of the current item. -/
def loopIndexName : String := "_i"

/-- What a template is required to have at some place. -/
inductive Expectation where
  | setupKeyword (found : Option Keyword)
  | moduleName
  | componentName
  | importWord
  | componentPath
  | assetPath (kind : AssetKind)
  | functionName
  | openParen
  | parameterName
  | closeParen
  | functionBody
  | serveParen
  | markup (found : Option Keyword)
  | branchBefore
  | condition
  | branchBlock
  | loopHead
  | bindingName
  | freeBindingName
  | loopBlock
  deriving Repr, DecidableEq

namespace Expectation

/-- What is wrong when the requirement is not met. -/
def message : Expectation → String
  | setupKeyword none => "Expected a keyword"
  | setupKeyword (some k) => "Unexpected keyword " ++ k.text
  | moduleName => "Expected a module name"
  | componentName => "Expected a component name"
  | importWord => "Expected 'import'"
  | componentPath => "Expected a component path"
  | assetPath kind => "Expected a " ++ kind.name ++ " path"
  | functionName => "Expected a function name"
  | openParen => "Expected '('"
  | parameterName => "Expected a parameter name"
  | closeParen => "Expected ')'"
  | functionBody => "Expected '\x7b'"
  | serveParen => "Expected '(' after serve"
  | markup none => "Unexpected token"
  | markup (some k) => "Unexpected keyword " ++ k.text
  | branchBefore => "Unexpected @else"
  | condition => "Expected an if condition"
  | branchBlock => "Expected a block after @if"
  | loopHead => "Expected a loop expression"
  | bindingName => "Expected a binding name"
  | freeBindingName => "\x60" ++ loopIndexName ++ "\x60 is reserved for the loop index"
  | loopBlock => "Expected a block after @each"

/-- What would meet the requirement. -/
def wanted : Expectation → String
  | setupKeyword _ => "'use', 'as', 'import', 'link', 'fn' or 'serve'"
  | moduleName => "module name"
  | componentName => "component name"
  | importWord => "'import'"
  | componentPath => "quoted path"
  | assetPath _ => "quoted path"
  | functionName => "function name"
  | openParen => "'('"
  | parameterName => "parameter name"
  | closeParen => "')'"
  | functionBody => "'\x7b'"
  | serveParen => "'('"
  | markup _ => "markup"
  | branchBefore => "'@if' before '@else'"
  | condition => "if condition"
  | branchBlock => "'\x7b \x7d'"
  | loopHead => "(array:binding)"
  | bindingName => "binding name"
  | freeBindingName => "binding name"
  | loopBlock => "'\x7b \x7d'"

end Expectation

/-- What waits for its counterpart in markup: a parenthesis or an element. -/
inductive Opener where
  | paren
  | element (name : String)
  deriving Repr, DecidableEq

def Opener.text : Opener → String
  | paren => "("
  | element name => "<" ++ name ++ ">"

/-- The faults of a template that make it malformed. -/
inductive TemplateFault where
  | unknownModule (name : String)
  | invalidComponentPath (literal : String)
  | unresolved (error : ResolveError)
  | invalidAssetPath (kind : AssetKind) (literal : String)
  | reservedFunctionName
  | evaluation (error : EvalError)
  | unclosed (opener : Opener)
  | unclosedServe
  | unclosedRaw (name : String)
  | unclosedComponent (name : String)
  | mismatchedClosing (opener : Opener) (name : String)
  | unopenedClosing (name : String)
  deriving Repr, DecidableEq

def TemplateFault.message : TemplateFault → String
  | unknownModule name => "Unknown module usage: \x60" ++ name ++ "\x60 is not a module"
  | invalidComponentPath literal => "Invalid component path " ++ literal
  | unresolved error => error.message
  | invalidAssetPath kind literal => "Invalid " ++ kind.name ++ " path " ++ literal
  | reservedFunctionName => "Can not assign keywords as identifiers"
  | evaluation error => error.message
  | unclosed opener => "Unclosed tag " ++ opener.text
  | unclosedServe => "Missing ')' to close serve"
  | unclosedRaw name => "Missing closing " ++ name ++ " tag"
  | unclosedComponent name => "Unended component <" ++ name ++ ">"
  | mismatchedClosing opener name =>
    "expecting the closing tag for " ++ opener.text ++ " but got </" ++ name ++ ">"
  | unopenedClosing name => "Unwanted tag </" ++ name ++ ">"

/-- The faults that keep a well-formed template from being rendered. -/
inductive RuntimeFault where
  | tooDeep (maxDepth : Nat)
  | unknownFunction (name : String)
  | evaluation (error : EvalError)
  | notAnArray (found : String)
  | missingHead (error : MissingHead)
  deriving Repr, DecidableEq

def RuntimeFault.message : RuntimeFault → String
  | tooDeep maxDepth => "Maximum render depth of " ++ toString maxDepth ++ " exceeded"
  | unknownFunction name => "\x60" ++ name ++ "\x60 is not a function"
  | evaluation error => error.message
  | notAnArray found => "expecting an array, got " ++ found
  | missingHead error => error.message

/-- Why a template cannot be rendered, and where that shows. -/
inductive RenderError where
  | scan (error : ScanError)
  | template (fault : TemplateFault) (location : Location)
  | unmet (expectation : Expectation) (received : String) (location : Location)
  | runtime (fault : RuntimeFault) (location : Location)
  deriving Repr, DecidableEq

namespace RenderError

def message : RenderError → String
  | scan error => error.message
  | template fault location => "Template Error: at " ++ location.text ++ " " ++ fault.message
  | unmet expectation received location =>
    "Syntax Error: " ++ expectation.message ++ "\n  at " ++ location.text ++ "\n  Expected: " ++
      expectation.wanted ++ "\n  Received: " ++ received
  | runtime fault location => "Runtime Error: at " ++ location.text ++ " " ++ fault.message

/-- A failed evaluation. Calls that lead nowhere or too deep are faults of the
run, all else is a fault of the template. -/
def ofEval (error : EvalError) (location : Location) : RenderError :=
  match error with
  | .notAFunction _ | .callDepth => .runtime (.evaluation error) location
  | _ => .template (.evaluation error) location

/-- A token other than the one required. -/
def atToken (expectation : Expectation) (token : Token) : RenderError :=
  .unmet expectation token.value token.location

end RenderError

end HtmlTemplate
