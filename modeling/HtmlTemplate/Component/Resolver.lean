import HtmlTemplate.File.Fault
import HtmlTemplate.File.Path
/-!
Finding the components that a template imports, among files or in a store kept in
memory.
-/
namespace HtmlTemplate

/-- The source text of a component and the path it was found at. Its own imports
start from that path. -/
structure ComponentSource where
  path : String
  text : String
  deriving Repr, DecidableEq

/-- Why a component is not found. -/
inductive ResolveError where
  | notFound (importPath : String)
  | noAliasDirectory (importPath : String)
  | unreadable (path : String) (fault : FileFault)
  deriving Repr, DecidableEq

/-- How a file that cannot be read is reported. -/
def unreadableMessage (path : String) (fault : FileFault) : String :=
  "Failed to read " ++ path ++ ": " ++ fault.message

def ResolveError.message : ResolveError → String
  | notFound importPath => "Component \x60" ++ importPath ++ "\x60 not found"
  | noAliasDirectory importPath =>
    "\x60" ++ importPath ++ "\x60 needs an alias directory to resolve against"
  | unreadable path fault => unreadableMessage path fault

/-- How imports are resolved: the component that a file imports by a path. -/
abbrev Resolver := (fromFile importPath : String) → Except ResolveError ComponentSource

/-- The extension of component files where no other is asked for. -/
def defaultExtension : String := "zare"

/-- Where component files are looked for: the directory that stands for a leading
colon, and their extension. -/
structure ComponentFiles where
  aliasDirectory : Option String
  extension : String
  deriving Repr, DecidableEq

namespace ComponentFiles

/-- Where the component that a file imports lies. Its path is relative to the
directory of that file, or to the alias directory if it begins with a colon. -/
def path (files : ComponentFiles) (fromFile importPath : String) : Except ResolveError String :=
  match importPath.toList with
  | ':' :: rest =>
    match files.aliasDirectory with
    | some directory =>
      .ok (Path.withExtension (Path.join directory (String.ofList rest)) files.extension)
    | none => .error (.noAliasDirectory importPath)
  | _ =>
    .ok (Path.withExtension (Path.join ((Path.parent? fromFile).getD ".") importPath)
      files.extension)

/-- Components are read from files. -/
def resolver (files : ComponentFiles) (read : FileReader) : Resolver :=
  fun fromFile importPath => do
    let path ← files.path fromFile importPath
    match read path with
    | .ok text => .ok ⟨path, text⟩
    | .error .notFound => .error (.notFound importPath)
    | .error fault => .error (.unreadable path fault)

end ComponentFiles

/-- Component sources by their keys; of two with one key the first counts. -/
abbrev ComponentStore := List (String × String)

namespace ComponentStore

/-- The key of a component: its import path without leading colons and without a
leading `./`, and with the extension of component files. -/
def key (importPath : String) : String :=
  let path := importPath.toList.dropWhile (· = ':')
  let path := (Text.dropPrefix? "./".toList path).getD path
  Path.withExtension (String.ofList path) defaultExtension

/-- Adds a component, in place of the one with the same key. -/
def add (store : ComponentStore) (importPath text : String) : ComponentStore :=
  (key importPath, text) :: store

/-- Components are taken from a store, whatever file imports them. -/
def resolver (store : ComponentStore) : Resolver :=
  fun _ importPath =>
    match store.lookup (key importPath) with
    | some text => .ok ⟨key importPath, text⟩
    | none => .error (.notFound importPath)

end ComponentStore

end HtmlTemplate
