import HtmlTemplate.Render.Setup

/-! What carrying out a setup statement comes to: an import is resolved and scanned
without a look at the session, and only then put into it. -/
namespace HtmlTemplate

/-- A component source and its tokens. -/
structure Imported where
  file : String
  tokens : List Token

/-- What a file gets when it imports a path. -/
def importSource (resolve : Resolver) (file path : String) (location : Location) :
    Except RenderError Imported :=
  match resolve file path with
  | .error e => .error (.template (.unresolved e) location)
  | .ok source =>
    match Token.scanTemplate source.text source.path with
    | .error e => .error (.scan e)
    | .ok tokens => .ok ⟨source.path, tokens⟩

/-- The component that an import defines in the frames of its importer. -/
def Session.importedComponent (session : Session) (importer : Scopes) (name : String)
    (found : Imported) : Component :=
  ⟨name, found.tokens, found.file, (session.componentScopes importer).2⟩

/-- The session with an import put into the frames of its importer. -/
def Session.addComponent (session : Session) (importer : Scopes) (name : String)
    (found : Imported) : Session :=
  { (session.componentScopes importer).1 with
    components := (session.componentScopes importer).1.components.define importer.components name
      (session.importedComponent importer name found) }

namespace Setup

/-- An import does nothing where its name is taken, fails where its path leads nowhere
and adds a component elsewhere. -/
theorem defineComponent_eq (resolve : Resolver) (context : Context) (session : Session)
    (name path : String) (location : Location) :
    defineComponent resolve context session name path location =
      if (session.components.lookupLocal? context.scopes.components name).isSome then
        (.ok (), session)
      else
        match importSource resolve context.file path location with
        | .error e => (.error e, session)
        | .ok found => (.ok (), session.addComponent context.scopes name found) := by
  unfold defineComponent importSource
  split
  · rfl
  · cases resolve context.file path with
    | error e => rfl
    | ok source =>
        dsimp only
        cases Token.scanTemplate source.text source.path with
        | error e => rfl
        | ok tokens => rfl

end Setup

end HtmlTemplate
