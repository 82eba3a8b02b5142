import ResourceClasses.Field.Table
import ResourceClasses.Generation.Classes

/-!
Builders: they write the classes of any number of packages below one directory, and the class that
holds the package id once.
-/

set_option autoImplicit false

namespace ResourceClasses.Generation

open ClassFile (ClassDecl)
open Files (FileError FileStore)

/-- Where classes are written, how they look, and whether the class that holds the package id has
been written. -/
structure Builder where
  outDir : String
  config : Config
  sharedIdWritten : Bool := false
  deriving DecidableEq, Repr

/-- A builder that has written nothing; to annotate classes it needs a label that is not empty. -/
def Builder.new (outDir : String) (config : Config) : Except GenerateError Builder :=
  if config.annotate && (config.label.getD "").isEmpty then .error .missingLabel
  else .ok { outDir, config }

variable {m : Type → Type} [Monad m]

/-- An operation on files, whose failure is one of generation at the given path. -/
def atPath {β : Type} (path : String) (operation : m (Except FileError β)) :
    ExceptT GenerateError m β :=
  (ExceptT.mk operation).adapt (.file path)

section

variable [FileStore m]

/-- Makes a directory and those above it that are missing. -/
def createDirs (path : String) : ExceptT GenerateError m Unit :=
  atPath path (FileStore.createDirs path)

/-- Writes a class to a new file. -/
def writeClass (path : String) (decl : ClassDecl) : ExceptT GenerateError m Unit := do
  match decl.toBytes with
  | .error reason => throw (.format reason)
  | .ok bytes =>
    let handle ← atPath path (FileStore.create path)
    atPath path (FileStore.write handle bytes)

/-- Writes the class that holds the package id below a directory. -/
def writeSharedId (outDir : String) (shared : SharedId) : ExceptT GenerateError m Unit := do
  let path := Path.join outDir (shared.internalName ++ ".class")
  createDirs (Path.directory path)
  writeClass path (sharedIdClass shared)

/-- Writes the class of a resource type into the directory of its package. -/
def writeInner {α : Type} [ResourceField α] (outer directory : String) (config : Config)
    (entry : ResourceType × List α) : ExceptT GenerateError m Unit := do
  let decl ← ExceptT.mk (pure (innerClass outer entry.1 entry.2 directory config))
  writeClass (Path.join directory ("R$" ++ entry.1.name ++ ".class")) decl

end

/-- Steps of a builder. What they have done to the builder and to the files when they fail stays
done. -/
abbrev Building (m : Type → Type) : Type → Type :=
  ExceptT GenerateError (StateT Builder m)

/-- A step on files, which a builder has no part in. -/
def onFiles {β : Type} (step : ExceptT GenerateError m β) : Building m β :=
  ExceptT.mk (StateT.lift step.run)

section

variable [FileStore m] {α : Type} [ResourceField α]

/-- Writes the class that holds the package id, if there is one and it has not been written. -/
def finish : Building m Unit := do
  let builder ← get
  match builder.config.sharedId with
  | none => pure ()
  | some shared =>
    if builder.sharedIdWritten then pure ()
    else
      onFiles (writeSharedId builder.outDir shared)
      modify fun builder => { builder with sharedIdWritten := true }

/-- Writes the outer class of a package, the classes of its resource types, and the class that holds
the package id, in that order, and gives the number of fields. Without fields it only makes the
directory of the package. -/
def writeClasses (package : String) (fields : FieldTable α) : Building m Nat := do
  let builder ← get
  let directory := Name.packageDir builder.outDir package
  onFiles (createDirs directory)
  if fields.isEmpty then pure 0
  else
    let outer := Name.outer package
    let types := fields.toList
    onFiles (writeClass (Path.join directory "R.class")
      (outerClass outer builder.config (types.map Prod.fst)))
    types.forM fun entry => onFiles (writeInner outer directory builder.config entry)
    finish
    pure fields.size

/-- Runs steps of a builder and gives the builder after them, which is given up if they fail. -/
def Builder.run {β : Type} (builder : Builder) (steps : Building m β) :
    ExceptT GenerateError m (β × Builder) :=
  ExceptT.mk do
    let (outcome, builder) ← steps.run.run builder
    pure (outcome.map fun result => (result, builder))

/-- Writes the classes of a package. -/
def Builder.generate (builder : Builder) (package : String) (fields : FieldTable α) :
    ExceptT GenerateError m (Nat × Builder) :=
  builder.run (writeClasses package fields)

/-- Like `Builder.generate`, for the fields that another table has fields of the same types and
names for. -/
def Builder.generateFiltered (builder : Builder) (package : String) (fields keep : FieldTable α) :
    ExceptT GenerateError m (Nat × Builder) :=
  builder.run (writeClasses package (fields.filter keep))

end

end ResourceClasses.Generation
