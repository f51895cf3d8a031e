/-!
Why a file cannot be read or written.
-/
namespace HtmlTemplate

/-- The faults of file access. What a file system reports beyond those that have
a constructor of their own is kept as text. A file that has not been looked at is
`unread`: whoever asks for it has to ask again once it has been. -/
inductive FileFault where
  | unread
  | notFound
  | notDirectory
  | isDirectory
  | nameTooLong
  | nulCharacter
  | invalidText
  | other (text : String)
  deriving Repr, DecidableEq

namespace FileFault

def message : FileFault → String
  | unread => "File has not been read"
  | notFound => "No such file or directory (os error 2)"
  | notDirectory => "Not a directory (os error 20)"
  | isDirectory => "Is a directory (os error 21)"
  | nameTooLong => "File name too long (os error 36)"
  | nulCharacter => "file name contained an unexpected NUL byte"
  | invalidText => "stream did not contain valid UTF-8"
  | other text => text

/-- Whether there is something at a path that cannot be read. -/
def isPresent : FileFault → Bool
  | unread | isDirectory | invalidText | other _ => true
  | notFound | notDirectory | nameTooLong | nulCharacter => false

end FileFault

/-- How files are read: the text at a path. -/
abbrev FileReader := String → Except FileFault String

end HtmlTemplate
