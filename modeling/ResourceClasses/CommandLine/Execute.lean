import ResourceClasses.ClassFile.Listing
import ResourceClasses.ClassFile.Parse
import ResourceClasses.CommandLine.Command
import ResourceClasses.Generation.Builder
import ResourceClasses.SymbolFile.Parse

/-!
Execution: what the commands do with the files they are given.
-/

set_option autoImplicit false

namespace ResourceClasses.CommandLine

open Files (FileStore)

/-- Why a command fails. -/
inductive CommandError
  | read (path : String) (reason : Files.FileError)
  | symbols (path : String) (reason : SymbolFileError)
  | classFile (path : String) (reason : ClassFile.FormatError)
  | generate (reason : Generation.GenerateError)
  deriving DecidableEq, Repr

def CommandError.message : CommandError → String
  | read path reason => "failed to read '" ++ path ++ "': " ++ reason.message
  | symbols path reason => path ++ ": " ++ reason.message
  | classFile path reason => path ++ ": " ++ reason.message
  | generate reason => reason.message

variable {m : Type → Type} [Monad m] [FileStore m]

def readContent (path : String) : ExceptT CommandError m (List UInt8) := do
  match ← (FileStore.contents path : m _) with
  | .ok content => pure content
  | .error reason => throw (.read path reason)

def loadSymbolFile (source : SymbolSource) : ExceptT CommandError m (FieldTable Symbol) := do
  let content ← readContent source.path
  match String.fromUTF8? (ByteArray.mk content.toArray) with
  | none => throw (.read source.path .invalidText)
  | some text =>
    match SymbolFile.parse text source.label with
    | .ok table => pure table
    | .error reason => throw (.symbols source.path reason)

/-- The symbols of all symbol files; the first file that declares a symbol decides its value. -/
def loadSymbols (sources : List SymbolSource) : ExceptT CommandError m (FieldTable Symbol) :=
  sources.foldlM (fun table source => do pure (table.merge (← loadSymbolFile source))) .empty

def GenerateRequest.config (request : GenerateRequest) : Config where
  finalFields := request.finalFields
  annotate := request.annotate
  label := request.label
  sharedId := request.sharedId

def generating {β : Type} (step : ExceptT Generation.GenerateError m β) :
    ExceptT CommandError m β :=
  step.adapt .generate

/-- Generates the classes of some symbol files and gives the number of fields written. -/
def generate (request : GenerateRequest) : ExceptT CommandError m Nat := do
  let fields ← loadSymbols request.symbols
  let builder ←
    generating (ExceptT.mk (pure (Generation.Builder.new request.outDir request.config)))
  match request.keep with
  | none => do
    let (count, _) ← generating (builder.generate request.package fields)
    pure count
  | some path => do
    let keep ← loadSymbolFile ⟨none, path⟩
    let (count, _) ← generating (builder.generateFiltered request.package fields keep)
    pure count

def dump (request : DumpRequest) : ExceptT CommandError m String := do
  let content ← readContent request.path
  match ClassFile.parse content with
  | .ok file => pure file.listing
  | .error reason => throw (.classFile request.path reason)

end ResourceClasses.CommandLine
