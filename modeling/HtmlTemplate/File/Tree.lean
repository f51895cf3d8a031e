import HtmlTemplate.File.Fault
import HtmlTemplate.Text.Search
/-!
Trees of files kept in memory. A path is followed name by name, so that one which
leads through a missing directory or through a file is refused, also if a later
`..` leads back.
-/
namespace HtmlTemplate

/-- What stands at a place of a tree. -/
inductive FileNode where
  | file (text : String)
  | directory
  deriving Repr, DecidableEq

/-- A place of a tree: the names that lead to it from the root, last one first. -/
abbrev FilePlace := List String

/-- Files and directories by their places, and the directory that relative paths
start from. -/
structure FileTree where
  nodes : List (FilePlace × FileNode)
  workingDirectory : FilePlace

namespace FileTree

/-- A tree that holds nothing but an empty working directory. -/
def empty : FileTree :=
  ⟨[(["work"], .directory)], ["work"]⟩

/-- What stands at a place. The root is a directory. -/
def node? (tree : FileTree) (place : FilePlace) : Option FileNode :=
  if place = [] then some .directory else tree.nodes.lookup place

/-- Puts something at a place. -/
def put (tree : FileTree) (place : FilePlace) (node : FileNode) : FileTree :=
  { tree with nodes := (place, node) :: tree.nodes }

/-- The longest name that a directory can hold, in bytes. -/
def maxNameBytes : Nat := 255

/-- The longest path that can be followed, in bytes. -/
def maxPathBytes : Nat := 4095

/-- Follows one name from a place. -/
def enter (tree : FileTree) (place : FilePlace) (name : String) : Except FileFault FilePlace :=
  match tree.node? place with
  | none => .error .notFound
  | some (.file _) => .error .notDirectory
  | some .directory =>
    if name = "" || name = "." then .ok place
    else if name = ".." then .ok place.tail
    else if maxNameBytes < name.utf8ByteSize then .error .nameTooLong
    else if (tree.node? (name :: place)).isSome then .ok (name :: place)
    else .error .notFound

/-- The names of a path. -/
def names (path : String) : List String :=
  (Text.pieces ['/'] path.toList).map String.ofList

/-- The place a path starts from. -/
def start (tree : FileTree) (path : String) : FilePlace :=
  if path.toList.head? = some '/' then [] else tree.workingDirectory

/-- Why a path cannot even be followed. -/
def pathFault? (path : String) : Option FileFault :=
  if path.toList.contains '\x00' then some .nulCharacter
  else if maxPathBytes < path.utf8ByteSize then some .nameTooLong
  else if path = "" then some .notFound
  else none

/-- The place a path leads to. -/
def find (tree : FileTree) (path : String) : Except FileFault FilePlace :=
  match pathFault? path with
  | some fault => .error fault
  | none => (names path).foldlM tree.enter (tree.start path)

/-- The text of the file at a path. -/
def read (tree : FileTree) (path : String) : Except FileFault String :=
  match tree.find path with
  | .error fault => .error fault
  | .ok place =>
    match tree.node? place with
    | some (.file text) => .ok text
    | some .directory => .error .isDirectory
    | none => .error .notFound

/-- Writes the file at a path, whose directory must be there. A path with a slash
at its end names a directory, whatever stands there. -/
def write (tree : FileTree) (path text : String) : Except FileFault FileTree :=
  match pathFault? path with
  | some fault => .error fault
  | none =>
    match (names path).reverse.dropWhile (· = "") with
    | [] => .error .isDirectory
    | name :: before => do
      let directory ← before.reverse.foldlM tree.enter (tree.start path)
      match tree.node? directory with
      | none => .error .notFound
      | some (.file _) => .error .notDirectory
      | some .directory =>
        if name = "." || name = ".." || path.toList.getLast? = some '/' then .error .isDirectory
        else if maxNameBytes < name.utf8ByteSize then .error .nameTooLong
        else if tree.node? (name :: directory) = some .directory then .error .isDirectory
        else .ok (tree.put (name :: directory) (.file text))

/-- Adds a directory with all directories on the way to it. -/
def addDirectory (tree : FileTree) (path : String) : FileTree :=
  ((names path).foldl (fun (tree, place) name =>
    if name = "" || name = "." then (tree, place)
    else if name = ".." then (tree, place.tail)
    else
      match tree.node? (name :: place) with
      | some _ => (tree, name :: place)
      | none => (tree.put (name :: place) .directory, name :: place))
    (tree, tree.start path)).1

/-- Adds a file with all directories on the way to it. -/
def addFile (tree : FileTree) (path text : String) : FileTree :=
  let tree := tree.addDirectory ("/".intercalate (names path).dropLast)
  match tree.write path text with
  | .ok tree => tree
  | .error _ => tree

end FileTree

end HtmlTemplate
