import ResourceClasses.CommandLine.Execute

/-!
The program: it reads its words as a command and runs the command on the files of the machine.
-/

set_option autoImplicit false

namespace ResourceClasses.CommandLine

open Files (FileError FileStore)

/-- The failure of the given number, if it is one that an operation on files names. -/
def numberedError? : Nat → Option FileError
  | 2 => some .notFound
  | 17 => some .alreadyExists
  | 20 => some .notADirectory
  | 21 => some .isADirectory
  | 36 => some .nameTooLong
  | _ => none

/-- The failure behind an error of the machine, whose number may be reported with either sign. -/
def fileError? : IO.Error → Option FileError
  | .alreadyExists _ code _ | .noFileOrDirectory _ code _ | .inappropriateType _ code _
  | .invalidArgument _ code _ => numberedError? code.toInt32.toInt.natAbs
  | _ => none

/-- An action on the files of the machine, with its failure as a value. -/
def attempt {α : Type} (action : IO α) : IO (Except FileError α) := do
  try
    pure (.ok (← action))
  catch e =>
    match fileError? e with
    | some reason => pure (.error reason)
    | none => throw e

/-- Makes a directory and those above it that are missing. A directory that is there already is no
failure, and any other failure is that of making the directory itself. -/
def createDirs (path : String) : IO Unit := do
  try
    IO.FS.createDir path
  catch e =>
    match e with
    | .noFileOrDirectory .. => IO.FS.createDirAll path
    | _ => try IO.FS.createDirAll path catch _ => throw e

instance : FileStore IO where
  Handle := IO.FS.Handle
  createDirs path := attempt (createDirs path)
  create path := attempt (IO.FS.Handle.mk path .writeNew)
  write handle content := attempt (handle.write (ByteArray.mk content.toArray))
  contents path := attempt do
    pure (← IO.FS.readBinFile path).toList

/-- Runs a command on the files of the machine and gives the text that it prints. -/
def run : Command → IO (Except CommandError String)
  | .generate request => do pure ((← (generate request).run).map fun _ => "")
  | .dump request => (dump request).run

end ResourceClasses.CommandLine

open ResourceClasses.CommandLine in
/-- Runs the command that the words give. Errors go to the error stream, and the exit code tells
wrong usage from a command that failed. -/
def main (words : List String) : IO UInt32 := do
  match command words with
  | .error reason =>
    if reason.isRequest then
      IO.println reason.message
      pure 0
    else
      IO.eprintln ("error: " ++ reason.message)
      pure 2
  | .ok command =>
    match ← run command with
    | .ok text =>
      IO.print text
      pure 0
    | .error reason =>
      IO.eprintln ("error: " ++ reason.message)
      pure 1
