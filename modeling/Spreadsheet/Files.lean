/-!
# Files

What the program asks of a file system: to read a file, to write one, and to tell how large one is. The
causes of failure are listed with the messages of the system.
-/

namespace Spreadsheet

inductive FileFault where
  | notFound
  | notDirectory
  | isDirectory
  | nameTooLong
  | noSpace
  /-- The bytes are not UTF-8 text. -/
  | invalidText
  | other (message : String)
deriving DecidableEq, Repr

namespace FileFault

def message : FileFault → String
  | .notFound => "No such file or directory (os error 2)"
  | .notDirectory => "Not a directory (os error 20)"
  | .isDirectory => "Is a directory (os error 21)"
  | .nameTooLong => "File name too long (os error 36)"
  | .noSpace => "No space left on device (os error 28)"
  | .invalidText => "stream did not contain valid UTF-8"
  | .other message => message

end FileFault

/-- A file system. Nothing is assumed of its answers. -/
class Files (m : Type → Type) where
  read : String → m (Except FileFault ByteArray)
  write : String → ByteArray → m (Except FileFault Unit)
  /-- The size of a file or directory in bytes, if there is one of that name. -/
  size? : String → m (Option Nat)

namespace Files

/-- The text of a file. -/
def textOf (bytes : ByteArray) : Except FileFault String :=
  match String.fromUTF8? bytes with
  | some text => .ok text
  | none => .error .invalidText

variable {m : Type → Type} [Monad m] [Files m]

def readText (path : String) : m (Except FileFault String) :=
  return (← read path).bind textOf

def writeText (path text : String) : m (Except FileFault Unit) := write path text.toUTF8

end Files

end Spreadsheet
