import HtmlTemplate.CommandLine
/-!
The program. What a command does is decided elsewhere; here files are read and
written and text is printed. A command is tried with the files known so far and,
if it asks for another one, tried again once that has been looked at.
-/
namespace HtmlTemplate

/-- The number of a system error, which may be given with its sign changed. -/
def errorNumber (code : UInt32) : Nat :=
  if code.toNat < 2147483648 then code.toNat else 4294967296 - code.toNat

/-- The fault that a failed access reports. -/
def FileFault.ofError (path : String) : IO.Error → FileFault
  | .noFileOrDirectory .. => .notFound
  | .inappropriateType _ code _ =>
    if errorNumber code = 21 then .isDirectory else .notDirectory
  | .permissionDenied _ code _ =>
    .other ("Permission denied (os error " ++ toString (errorNumber code) ++ ")")
  | .invalidArgument _ code details =>
    if path.toList.contains '\x00' then .nulCharacter
    else if errorNumber code = 36 then .nameTooLong
    else .other (details ++ " (os error " ++ toString (errorNumber code) ++ ")")
  | e => .other (toString e)

/-- Reads a file. -/
def readText (path : String) : IO (Except FileFault String) := do
  try
    match String.fromUTF8? (← IO.FS.readBinFile path) with
    | some text => return .ok text
    | none => return .error .invalidText
  catch e => return .error (.ofError path e)

/-- Writes a file. -/
def writeText (path text : String) : IO (Except FileFault Unit) := do
  try
    IO.FS.writeFile path text
    return .ok ()
  catch e => return .error (.ofError path e)

/-- The files looked at so far, by their paths. -/
abbrev KnownFiles := List (String × Except FileFault String)

/-- Tries a command until it has seen all the files it asks for. -/
partial def Command.settle (command : Command) (known : KnownFiles) :
    IO (Except CommandError CommandEffect) := do
  match command.run fun path => (known.lookup path).getD (.error .unread) with
  | .error e =>
    match e.pending? with
    | some path => settle command ((path, ← readText path) :: known)
    | none => return .error e
  | .ok effect => return .ok effect

/-- Runs a command on the files of the system. -/
def Command.perform (command : Command) : IO CommandOutcome := do
  match ← command.settle [] with
  | .error e => return .failed e
  | .ok (.report output messages) => return .ok output messages
  | .ok (.write path text) => return .written path (← writeText path text)

end HtmlTemplate

/-- Runs the command that the arguments ask for. -/
def main (args : List String) : IO UInt32 := do
  let outcome ←
    match HtmlTemplate.Command.ofArguments? args with
    | some command => command.perform
    | none => pure .misused
  IO.print outcome.output
  IO.eprint outcome.messages
  return UInt32.ofNat outcome.status
