/-!
File stores: the operations on files that generation needs, and why they fail.
-/

set_option autoImplicit false

namespace ResourceClasses.Files

/-- Why an operation on files fails. -/
inductive FileError
  | alreadyExists
  | notFound
  | notADirectory
  | isADirectory
  | nameTooLong
  | invalidText
  deriving DecidableEq, Repr

def FileError.message : FileError → String
  | alreadyExists => "File exists (os error 17)"
  | notFound => "No such file or directory (os error 2)"
  | notADirectory => "Not a directory (os error 20)"
  | isADirectory => "Is a directory (os error 21)"
  | nameTooLong => "File name too long (os error 36)"
  | invalidText => "stream did not contain valid UTF-8"

/-- A place that keeps directories and files. -/
class FileStore (m : Type → Type) where
  /-- What a file that has been made is written through. -/
  Handle : Type
  /-- Makes a directory and those above it that are missing; directories there already are kept. -/
  createDirs : String → m (Except FileError Unit)
  /-- Makes an empty file at a path where there is nothing yet. -/
  create : String → m (Except FileError Handle)
  /-- Writes the content of a file that has been made. -/
  write : Handle → List UInt8 → m (Except FileError Unit)
  /-- The content of a file. -/
  contents : String → m (Except FileError (List UInt8))

end ResourceClasses.Files
