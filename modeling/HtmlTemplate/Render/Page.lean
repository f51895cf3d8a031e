import HtmlTemplate.Markup.Escape
import HtmlTemplate.Render.Options
import HtmlTemplate.Render.Work
/-!
Rendering pages: a template with the components it imports, put together with the
parameters it is given.
-/
namespace HtmlTemplate

/-- Renders the rest of a template as a whole document: with its references
replaced, and with what data brought along written as it was. -/
def Rendering.document (nested : Nested) (resolve : Resolver) (r : Rendering)
    (session : Session) : Except RenderError (List Char) × Rendering × Session :=
  let rendered := r.template nested resolve session
  (rendered.1.map fun html => unshield (substitute r.context.bag html), rendered.2)

namespace Options

/-- The parameters that a page sees. -/
def visibleBag (options : Options) (bag : Bag) : Bag :=
  if options.escapeParameters then bag.sanitize else bag

/-- Renders a template as a page. -/
def render (options : Options) (resolve : Resolver) (source : String) (bag : Bag)
    (path : String) : Except RenderError String :=
  match Token.scanTemplate source path with
  | .error e => .error (.scan e)
  | .ok tokens =>
    let (session, scopes) := (Session.start options.maxDepth).pageScopes
    let r := Rendering.start tokens ⟨options.visibleBag bag, scopes, path⟩
    (r.document (session.nested resolve) resolve session).1.map String.ofList

end Options

/-- Why the page of a file cannot be rendered. -/
inductive PageError where
  | unreadable (path : String) (fault : FileFault)
  | render (error : RenderError)
  deriving Repr, DecidableEq

def PageError.message : PageError → String
  | unreadable path fault => unreadableMessage path fault
  | render error => error.message

/-- Renders the template of a file, with components from files. -/
def Options.renderFile (options : Options) (read : FileReader) (path : String) (bag : Bag) :
    Except PageError String :=
  match read path with
  | .error fault => .error (.unreadable path fault)
  | .ok source =>
    match options.render (options.componentFiles.resolver read) source bag path with
    | .ok html => .ok html
    | .error e => .error (.render e)

end HtmlTemplate
