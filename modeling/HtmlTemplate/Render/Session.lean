import HtmlTemplate.Render.Scope
import HtmlTemplate.Script.Function
import HtmlTemplate.Source.Token
/-!
What all templates that take part in one page share: the frames of their names,
and how deep rendering is nested.
-/
namespace HtmlTemplate

/-- The frames that one template, or a block of it, defines names in. -/
structure Scopes where
  components : Nat
  stylesheets : Nat
  scripts : Nat
  functions : Nat
  deriving Repr, DecidableEq

/-- An imported component. Its tokens are rendered anew at each use, in frames
that stay from one use to the next. -/
structure Component where
  name : String
  tokens : List Token
  file : String
  scopes : Scopes

/-- The state of rendering one page. -/
structure Session where
  components : ScopeArena Component
  stylesheets : ScopeArena String
  scripts : ScopeArena String
  functions : ScopeArena Function
  depth : Nat
  maxDepth : Nat

namespace Session

/-- The state before anything is rendered. -/
def start (maxDepth : Nat) : Session :=
  ⟨.empty, .empty, .empty, .empty, 0, maxDepth⟩

/-- Opens a frame in each arena. -/
def openScopes (session : Session) (components stylesheets scripts functions : Option Nat) :
    Session × Scopes :=
  let (components, c) := session.components.alloc components
  let (stylesheets, l) := session.stylesheets.alloc stylesheets
  let (scripts, s) := session.scripts.alloc scripts
  let (functions, f) := session.functions.alloc functions
  ({ session with components, stylesheets, scripts, functions }, ⟨c, l, s, f⟩)

/-- Fresh frames for a template that nothing imports. -/
def pageScopes (session : Session) : Session × Scopes :=
  session.openScopes none none none none

/-- Frames for a component: its assets belong to its importer, its components and
functions are its own. -/
def componentScopes (session : Session) (importer : Scopes) : Session × Scopes :=
  session.openScopes none (some importer.stylesheets) (some importer.scripts) none

/-- Frames for the block of a branch or loop, which sees all names around it and
shares their assets. -/
def blockScopes (session : Session) (outer : Scopes) : Session × Scopes :=
  let (components, c) := session.components.alloc (some outer.components)
  let (functions, f) := session.functions.alloc (some outer.functions)
  ({ session with components, functions }, { outer with components := c, functions := f })

/-- The component of a name. -/
def component? (session : Session) (scopes : Scopes) (name : String) : Option Component :=
  session.components.lookup? scopes.components name

/-- The function of a name. -/
def function? (session : Session) (scopes : Scopes) (name : String) : Option Function :=
  session.functions.lookup? scopes.functions name

/-- Goes one level deeper. -/
def enter (session : Session) : Session :=
  { session with depth := session.depth + 1 }

/-- Comes back from one level. -/
def leave (session : Session) : Session :=
  { session with depth := session.depth - 1 }

end Session

end HtmlTemplate
