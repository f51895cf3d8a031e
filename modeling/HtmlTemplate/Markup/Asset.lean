import HtmlTemplate.Text.Blank
import HtmlTemplate.Text.Search
/-!
Stylesheets and scripts, and the tags that put them into the head of a page.
-/
namespace HtmlTemplate

/-- The two kinds of files a page can link. -/
inductive AssetKind where
  | stylesheet
  | script
  deriving Repr, DecidableEq

namespace AssetKind

def name : AssetKind → String
  | stylesheet => "stylesheet"
  | script => "script"

def extension : AssetKind → String
  | stylesheet => "css"
  | script => "js"

/-- The tag that links a file of this kind, on a line of its own. -/
def tag (path : String) : AssetKind → String
  | stylesheet => "\n<link rel=\"stylesheet\" href=\"" ++ path ++ "\" />"
  | script => "\n<script src=\"" ++ path ++ "\" defer></script>"

end AssetKind

/-- A path with its extension, which is added only if the path does not end
in it. -/
def withAssetExtension (path extension : String) : String :=
  let ending := "." ++ extension
  if ending.toList.isSuffixOf path.toList then path else path ++ ending

/-- Whether a path is one that a page can link: it begins at the root or beside
the page. -/
def isAssetPath (path : List Char) : Bool :=
  "/".toList.isPrefixOf path || "./".toList.isPrefixOf path

/-- Whether a text begins like the opening tag of the head. -/
def opensHead (text : List Char) : Bool :=
  match Text.dropPrefixIgnoringCase? "<head".toList text with
  | some (c :: _) => c = '>' || Text.isBlank c
  | _ => false

/-- Splits a page before the opening tag of its head. If the first that looks like
one has no end, no later one has. -/
def splitHead? : (html : List Char) → Option (List Char × List Char)
  | [] => none
  | c :: rest =>
    if opensHead (c :: rest) then
      if rest.contains '>' then some ([], c :: rest) else none
    else (splitHead? rest).map fun (before, head) => (c :: before, head)

/-- Splits a page that begins with the opening tag of its head where assets are
linked: behind the title, or behind that tag if no title follows. -/
def splitLinkPlace (head : List Char) : List Char × List Char :=
  match Text.splitFirst? "</title>".toList head with
  | some (before, after) => (before ++ "</title>".toList, after)
  | none =>
    let tag := head.takeWhile (· ≠ '>')
    (tag ++ ['>'], head.drop (tag.length + 1))

/-- Assets are to be linked and the page has no head. -/
structure MissingHead where
  kind : AssetKind
  deriving Repr, DecidableEq

def MissingHead.message (e : MissingHead) : String :=
  "Head tag is required to link " ++ e.kind.name ++ "s"

/-- Links assets in the head of a page, stylesheets before scripts. A page
without assets needs no head. -/
def linkAssets (html : List Char) (stylesheets scripts : List String) :
    Except MissingHead (List Char) :=
  if stylesheets = [] && scripts = [] then .ok html
  else
    match splitHead? html with
    | none => .error ⟨if scripts = [] then .stylesheet else .script⟩
    | some (before, head) =>
      let (upTo, after) := splitLinkPlace head
      let tags := stylesheets.map (AssetKind.stylesheet.tag) ++ scripts.map (AssetKind.script.tag)
      .ok (before ++ upTo ++ tags.flatMap String.toList ++ after)

end HtmlTemplate
