import HtmlTemplate.Data.Json
import HtmlTemplate.File.Tree
import HtmlTemplate.Render.Page
/-!
The command line: its arguments, and what a command does. A command reads files and
then either reports something or writes one file, which it leaves to its caller.
-/
namespace HtmlTemplate

/-- What can be asked for on the command line. -/
inductive Command where
  | render (path : String) (params config out : Option String) (raw : Bool)
  | check (path : String)
  deriving Repr, DecidableEq

/-- The arguments behind the name of a command. -/
structure Arguments where
  paths : List String := []
  params : Option String := none
  config : Option String := none
  out : Option String := none
  raw : Bool := false

namespace Arguments

/-- Sets an option that takes a value and has none yet. -/
def setOption? (a : Arguments) (name value : String) : Option Arguments :=
  if value = "" then none
  else
    match name, a.params, a.config, a.out with
    | "--params", none, _, _ => some { a with params := some value }
    | "--config", _, none, _ => some { a with config := some value }
    | "--out", _, _, none => some { a with out := some value }
    | _, _, _, _ => none

/-- Whether an argument is the name of an option and not a value. -/
def isOption (argument : String) : Bool :=
  argument.toList.head? = some '-' && argument ≠ "-"

/-- Reads arguments in any order. Behind `--` everything is a path. -/
def read? (a : Arguments) : List String → Option Arguments
  | [] => some a
  | "--" :: rest => some { a with paths := a.paths ++ rest }
  | "--raw" :: rest => if a.raw then none else read? { a with raw := true } rest
  | argument :: rest =>
    if !isOption argument then read? { a with paths := a.paths ++ [argument] } rest
    else
      match Text.splitFirst? ['='] argument.toList with
      | some (name, value) =>
        (a.setOption? (String.ofList name) (String.ofList value)).bind (read? · rest)
      | none =>
        match rest with
        | [] => none
        | value :: rest =>
          if isOption value then none else (a.setOption? argument value).bind (read? · rest)

end Arguments

namespace Command

/-- The command that arguments ask for. -/
def ofArguments? : List String → Option Command
  | "render" :: rest =>
    match Arguments.read? {} rest with
    | some ⟨[path], params, config, out, raw⟩ =>
      if path = "" then none else some (.render path params config out raw)
    | _ => none
  | "check" :: rest =>
    match Arguments.read? {} rest with
    | some ⟨[path], none, none, none, false⟩ => if path = "" then none else some (.check path)
    | _ => none
  | _ => none

/-- How the program is called. -/
def usage : String :=
  "Usage: render PATH [--params FILE] [--config FILE] [--out FILE] [--raw]\n" ++
    "       check PATH\n"

end Command

/-- Why a command fails. -/
inductive CommandError where
  | unreadable (path : String) (fault : FileFault)
  | invalidData (path : String)
  | page (error : PageError)
  | unwritable (path : String) (fault : FileFault)
  deriving Repr, DecidableEq

namespace CommandError

def message : CommandError → String
  | unreadable path fault =>
    if fault.isPresent then "Error reading " ++ path ++ ": " ++ fault.message
    else "Error: file not found: " ++ path
  | invalidData path => "Invalid JSON in " ++ path
  | page error => error.message
  | unwritable path fault => "Error writing " ++ path ++ ": " ++ fault.message

/-- The file that has to be looked at before the command can go on. -/
def pending? : CommandError → Option String
  | unreadable path .unread => some path
  | page (.render (.template (.unresolved (.unreadable path .unread)) _)) => some path
  | _ => none

end CommandError

/-- What a command comes to: text for the two output streams, or a file to be
written. -/
inductive CommandEffect where
  | report (output messages : String)
  | write (path text : String)
  deriving Repr, DecidableEq

namespace Command

/-- The text of a file that a command names. -/
def readNamed (read : FileReader) (path : String) : Except CommandError String :=
  match read path with
  | .ok text => .ok text
  | .error fault => .error (.unreadable path fault)

/-- What is written in a file that a command may name. -/
def readData {α : Type} (read : FileReader) (ofJson? : String → Option α) (default : α) :
    Option String → Except CommandError α
  | none => .ok default
  | some path => do
    let text ← readNamed read path
    match ofJson? text with
    | some a => .ok a
    | none => .error (.invalidData path)

/-- How deep the values in a file of parameters may be nested, the object of all
parameters included. -/
def maxParameterDepth : Nat := 127

/-- Parameters are the fields of an object. -/
def bagOfJson? (text : String) : Option Bag :=
  match (Json.read? text).filter (·.depth ≤ maxParameterDepth) with
  | some (.object fields) => some fields
  | _ => none

/-- Renders the template of a file that a command names. -/
def page (read : FileReader) (options : Options) (bag : Bag) (path : String) :
    Except CommandError String := do
  let source ← readNamed read path
  match options.render (options.componentFiles.resolver read) source bag path with
  | .ok html => .ok html
  | .error e => .error (.page (.render e))

/-- What a command comes to. The options are read before the parameters and these
before the template. -/
def run (read : FileReader) : Command → Except CommandError CommandEffect
  | .render path params config out raw => do
    let options ← readData read Options.ofJson? {} config
    let options := if raw then { options with escapeParameters := false } else options
    let bag ← readData read bagOfJson? [] params
    let html ← page read options bag path
    match out with
    | some target => return .write target html
    | none => return .report html ""
  | .check path => do
    let _ ← page read {} [] path
    return .report "" ("OK: " ++ path ++ "\n")

end Command

/-- What a command leaves behind: its exit status and the text on both output
streams. -/
structure CommandOutcome where
  status : Nat
  output : String
  messages : String
  deriving Repr, DecidableEq

namespace CommandOutcome

/-- The outcome of a command that reports something. -/
def ok (output messages : String) : CommandOutcome :=
  ⟨0, output, messages⟩

/-- The outcome of a command that fails. -/
def failed (error : CommandError) : CommandOutcome :=
  ⟨1, "", error.message ++ "\n"⟩

/-- The outcome of arguments that are no command. -/
def misused : CommandOutcome :=
  ⟨2, "", Command.usage⟩

/-- The outcome of writing a file. -/
def written (path : String) : Except FileFault Unit → CommandOutcome
  | .ok () => ok "" ""
  | .error fault => failed (.unwritable path fault)

end CommandOutcome

/-- Runs a command on a tree of files. -/
def Command.runIn (tree : FileTree) (command : Command) : CommandOutcome × FileTree :=
  match command.run tree.read with
  | .error e => (.failed e, tree)
  | .ok (.report output messages) => (.ok output messages, tree)
  | .ok (.write path text) =>
    match tree.write path text with
    | .ok after => (.written path (.ok ()), after)
    | .error fault => (.written path (.error fault), tree)

end HtmlTemplate
