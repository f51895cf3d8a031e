import HtmlTemplate.Builtin.Group
import HtmlTemplate.Component.Resolver
import HtmlTemplate.Render.Context
import HtmlTemplate.Render.Reading
import HtmlTemplate.Source.Stream
import HtmlTemplate.Text.Letter
import HtmlTemplate.Text.Quoted
/-!
The statements that prepare a page. A statement is first read as a whole, which
leaves the session alone, and then carried out, which leaves it alone if it fails.
-/
namespace HtmlTemplate

/-- A statement before the page itself. -/
inductive Setup where
  | useFunctions (group : List Builtin)
  | importComponent (name path : String) (location : Location)
  | linkAsset (kind : AssetKind) (path : String)
  | declare (f : Function)

namespace Setup

/-- Whether a path can be imported: letters, digits and the characters `_`, `-`,
`.`, `/` and space, behind a colon if the path begins with one. -/
def isComponentPath (path : List Char) : Bool :=
  (match path with
    | ':' :: rest => rest
    | path => path).all fun c =>
      Text.isWordCharacter c || c = '.' || c = '-' || c = '/' || c = ' '

/-- The names that no function can have. -/
def reservedNames : List String :=
  ["if", "else", "each"]

/-- `use` and the name of a group of functions. -/
def readUse (endAt : Location) : Reading Setup := do
  let name ← Reading.expect endAt .text .moduleName
  match Builtin.group? name.value with
  | some group => return .useFunctions group
  | none => Reading.fail (.template (.unknownModule name.value) name.location)

/-- `as`, a name, `import` and a path. -/
def readImport (endAt : Location) : Reading Setup := do
  let name ← Reading.expect endAt .text .componentName
  let _ ← Reading.expect endAt (.keyword .importPath) .importWord
  let literal ← Reading.expect endAt .string .componentPath
  match (Text.unquote? literal.value.toList).filter isComponentPath with
  | some path => return .importComponent name.value (String.ofList path) literal.location
  | none => Reading.fail (.template (.invalidComponentPath literal.value) literal.location)

/-- `link` or `import` and a path. -/
def readAsset (endAt : Location) (kind : AssetKind) : Reading Setup := do
  let literal ← Reading.expect endAt .string (.assetPath kind)
  match (Text.unquote? literal.value.toList).filter isAssetPath with
  | some path => return .linkAsset kind (withAssetExtension (String.ofList path) kind.extension)
  | none => Reading.fail (.template (.invalidAssetPath kind literal.value) literal.location)

/-- The names of parameters up to the closing parenthesis. Commas and blanks
between them do not matter; `names` holds those already read, last one first. -/
def readParams (endAt : Location) : (names : List String) → Reading (List String)
  | _, [] => ⟨.error (.unmet .closeParen "end of input" endAt), [], List.nil_suffix⟩
  | names, token :: rest =>
    have forward := List.suffix_cons token rest
    let next (names : List String) : Reading.Result (List String) (token :: rest) :=
      let later := readParams endAt names rest
      ⟨later.value, later.rest, later.forward.trans forward⟩
    match token.kind with
    | .closeParen => ⟨.ok names.reverse, rest, forward⟩
    | .text => next (token.value :: names)
    | .blank => next names
    | .unknown =>
      if token.value = "," then next names
      else ⟨.error (.atToken .parameterName token), rest, forward⟩
    | _ => ⟨.error (.atToken .parameterName token), rest, forward⟩

/-- `fn`, a name, parameters in parentheses and a body in braces. -/
def readFunction (endAt : Location) : Reading Setup := do
  let name ← Reading.expect endAt .text .functionName
  if reservedNames.contains name.value then
    Reading.fail (.template .reservedFunctionName name.location)
  else
    let _ ← Reading.expect endAt .openParen .openParen
    let params ← readParams endAt []
    let body ← Reading.expect endAt .block .functionBody
    match Function.compile name.value params body.value with
    | .ok f => return .declare f
    | .error e => Reading.fail (.template (.evaluation e) body.location)

/-- How the statement is read that a keyword begins. -/
def reader? (endAt : Location) : Keyword → Option (Reading Setup)
  | .useModule => some (readUse endAt)
  | .asName => some (readImport endAt)
  | .linkPath => some (readAsset endAt .stylesheet)
  | .importPath => some (readAsset endAt .script)
  | .function => some (readFunction endAt)
  | .serve | .ifBranch | .elseBranch | .eachItem => none

/-- Registers an asset at the page, whichever component asks for it. -/
def registerAsset (scopes : Scopes) (session : Session) (path : String) : AssetKind → Session
  | .stylesheet =>
    let root := session.stylesheets.root scopes.stylesheets
    { session with stylesheets := session.stylesheets.define root path path }
  | .script =>
    let root := session.scripts.root scopes.scripts
    { session with scripts := session.scripts.define root path path }

/-- Defines a function under its own name. -/
def defineFunction (scopes : Scopes) (session : Session) (f : Function) : Session :=
  { session with functions := session.functions.define scopes.functions f.name f }

/-- Imports a component, unless the importing template has one of that name
already. -/
def defineComponent (resolve : Resolver) (context : Context) (session : Session)
    (name path : String) (location : Location) : Except RenderError Unit × Session :=
  if (session.components.lookupLocal? context.scopes.components name).isSome then
    (.ok (), session)
  else
    match resolve context.file path with
    | .error e => (.error (.template (.unresolved e) location), session)
    | .ok source =>
      match Token.scanTemplate source.text source.path with
      | .error e => (.error (.scan e), session)
      | .ok tokens =>
        let (session, scopes) := session.componentScopes context.scopes
        let component : Component := ⟨name, tokens, source.path, scopes⟩
        (.ok (), { session with
          components := session.components.define context.scopes.components name component })

/-- Carries out a statement. -/
def run (resolve : Resolver) (context : Context) (session : Session) :
    Setup → Except RenderError Unit × Session
  | .useFunctions group =>
    (.ok (), (group.map Function.builtin).foldl (defineFunction context.scopes) session)
  | .importComponent name path location =>
    defineComponent resolve context session name path location
  | .linkAsset kind path => (.ok (), registerAsset context.scopes session path kind)
  | .declare f => (.ok (), defineFunction context.scopes session f)

end Setup

end HtmlTemplate
