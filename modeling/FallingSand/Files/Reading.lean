/-!
# Reading texts from files

A file is read as bytes that should be a text, or there is a reason why there are
none.
-/

namespace FallingSand.Files

/-- Why a file cannot be read or written. -/
inductive Failure where
  | notFound
  /-- Something on the way to the file is no directory. -/
  | notADirectory
  | isADirectory
  | nameTooLong
  | other (reason : String)
  deriving DecidableEq, Repr

def Failure.message : Failure → String
  | .notFound => "No such file or directory (os error 2)"
  | .notADirectory => "Not a directory (os error 20)"
  | .isADirectory => "Is a directory (os error 21)"
  | .nameTooLong => "File name too long (os error 36)"
  | .other reason => reason

inductive ReadFailure where
  | file (failure : Failure)
  /-- The bytes are no text. -/
  | notText
  deriving DecidableEq, Repr

def ReadFailure.message : ReadFailure → String
  | .file failure => failure.message
  | .notText => "stream did not contain valid UTF-8"

def decode (bytes : Except Failure ByteArray) : Except ReadFailure String := do
  match String.fromUTF8? (← bytes.mapError .file) with
  | some text => return text
  | none => throw .notText

end FallingSand.Files
