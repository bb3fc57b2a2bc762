/-!
# Files

Why a file cannot be read or written, and the text of a file's bytes.
-/

namespace VaultIndex

inductive FileError where
  | notFound
  | notADirectory
  | isADirectory
  /-- The bytes of the file are no text. -/
  | notText
  | other (message : String)
deriving DecidableEq, Inhabited

namespace FileError

def message : FileError → String
  | notFound => "No such file or directory (os error 2)"
  | notADirectory => "Not a directory (os error 20)"
  | isADirectory => "Is a directory (os error 21)"
  | notText => "stream did not contain valid UTF-8"
  | other message => message

end FileError

/-- The text that a file's bytes are. -/
def fileText (bytes : ByteArray) : Except FileError String :=
  match String.fromUTF8? bytes with
  | some s => .ok s
  | none => .error .notText

end VaultIndex
