import HtmlTemplate.Text.Search
/-!
File paths as text: names separated by slashes. Empty names and single dots say
nothing, except for a dot that a relative path begins with. All operations work on
the text, so that a path is reported as it was put together.
-/
namespace HtmlTemplate.Path

/-- Whether a name in a path says nothing. -/
def isIdle (name : List Char) : Bool :=
  name = [] || name = ['.']

/-- The part of a path that is not a list of names, and what follows it: the slash
of an absolute path, or the dot that a relative one begins with. -/
def splitStart : List Char → List Char × List Char
  | '/' :: rest => (['/'], rest)
  | ['.'] => (['.'], [])
  | '.' :: '/' :: rest => (['.'], '/' :: rest)
  | path => ([], path)

/-- The names of a path, last one first, from the last that says something on. -/
def namesBackwards (names : List Char) : List (List Char) :=
  (Text.pieces ['/'] names).reverse.dropWhile isIdle

/-- The path without its last name. The root has none, and neither has the empty
path. -/
def parent? (path : String) : Option String :=
  let (start, names) := splitStart path.toList
  match namesBackwards names with
  | _ :: before =>
    some (String.ofList (start ++ ['/'].intercalate (before.dropWhile isIdle).reverse))
  | [] => if start = ['.'] then some "" else none

/-- The last name of a path, unless it means the parent. -/
def fileName? (path : String) : Option (List Char) :=
  (namesBackwards (splitStart path.toList).2).head?.filter (· ≠ ['.', '.'])

/-- What follows the last dot of a file name. A dot that begins the name does not
count. -/
def extension? (path : String) : Option (List Char) :=
  (fileName? path).bind fun name =>
    let after := name.reverse.takeWhile (· ≠ '.')
    if after.length + 1 < name.length then some after.reverse else none

/-- A path within a directory. An absolute path stays as it is. -/
def join (directory path : String) : String :=
  if path.toList.head? = some '/' || directory = "" then path
  else if directory.toList.getLast? = some '/' then directory ++ path
  else directory ++ "/" ++ path

/-- A path with an extension, which is added only if the path has another one or
none. -/
def withExtension (path extension : String) : String :=
  if extension? path = some extension.toList then path else path ++ "." ++ extension

end HtmlTemplate.Path
