import ResourceClasses.Generation.Builder
import ResourceClasses.Proofs.Files.Passage

/-!
Planned files: a generation writes the class files of its plan one after another, and stops at the
first one that it cannot write. What it leaves is a prefix of the plan.
-/

set_option autoImplicit false

namespace ResourceClasses.Generation

open ClassFile (ClassDecl)
open Files (Disk FileError FileStore Location place runOn runOn_bind runOn_bind_ok)

/-- An operation on files is done on the disk, and its failure becomes one at the path. -/
theorem runOn_atPath {β σ : Type} (path : String) (operation : StateM σ (Except FileError β))
    (disk : σ) :
    runOn (atPath path operation) disk =
      ((operation.run disk).1.mapError (.file path), (operation.run disk).2) := rfl

/-- Making directories in a generation is making them on the disk. -/
theorem runOn_createDirs_eq (path : String) (disk : Disk) :
    runOn (createDirs path) disk =
      ((disk.addPath path).1.mapError (.file path), (disk.addPath path).2) := rfl

theorem runOn_createDirs {path : String} {disk later : Disk}
    (made : disk.addPath path = (.ok (), later)) :
    runOn (createDirs path) disk = (.ok (), later) := by
  rw [runOn_createDirs_eq, made]
  rfl

/-- Writing a class that has bytes is adding their file to the disk. -/
theorem runOn_writeClass_eq {path : String} {decl : ClassDecl} {bytes : List UInt8}
    (written : decl.toBytes = .ok bytes) (disk : Disk) :
    runOn (writeClass path decl) disk =
      match disk.addFile path bytes with
      | .ok later => (.ok (), later)
      | .error reason => (.error (.file path reason), disk) := by
  simp only [writeClass, written]
  have created : (FileStore.create path : StateM Disk _).run disk = disk.create path := rfl
  rw [runOn_bind, runOn_atPath, created, Disk.create, Disk.addFile]
  cases disk.freePlace path <;> rfl

theorem runOn_writeClass {path : String} {decl : ClassDecl} {bytes : List UInt8}
    {disk later : Disk} (written : decl.toBytes = .ok bytes)
    (added : disk.addFile path bytes = .ok later) :
    runOn (writeClass path decl) disk = (.ok (), later) := by
  rw [runOn_writeClass_eq written, added]

/-- A class file that is to be written: the directory that is made for it, if any, its class or why
there is none, and its path. -/
structure PlannedFile where
  directory : Option String
  decl : Except GenerateError ClassDecl
  path : String

namespace PlannedFile

section

variable {m : Type → Type} [Monad m] [FileStore m]

/-- Makes the directory of a class file, if it has one of its own. -/
def prepare (file : PlannedFile) : ExceptT GenerateError m Unit :=
  match file.directory with
  | some path => createDirs path
  | none => pure ()

/-- Makes the directory of a class file, then its class, and writes it to a new file. -/
def write (file : PlannedFile) : ExceptT GenerateError m Unit := do
  file.prepare
  let decl ← ExceptT.mk (pure file.decl)
  writeClass file.path decl

variable [LawfulMonad m]

theorem forM_write_append (files others : List PlannedFile) :
    ((files ++ others).forM write : ExceptT GenerateError m PUnit) =
      files.forM write >>= fun _ => others.forM write := by
  rw [List.forM_eq_forM, List.forM_append]

theorem forM_write_singleton (file : PlannedFile) :
    ([file].forM write : ExceptT GenerateError m PUnit) = file.write := by
  rw [List.forM_eq_forM, List.forM_cons, List.forM_nil, bind_pure_unit]

end

/-- What making the directory of a class file gives on a disk. -/
def prepareOn (file : PlannedFile) (disk : Disk) : Except FileError Unit × Disk :=
  match file.directory with
  | some path => disk.addPath path
  | none => (.ok (), disk)

/-- Whether a class file is to hold some bytes: those of its class. -/
def Content (file : PlannedFile) (bytes : List UInt8) : Prop :=
  ∃ decl, file.decl = .ok decl ∧ decl.toBytes = .ok bytes

/-- Whether a class file is written: its directory is there, and its bytes go to a new file. -/
structure Writes (file : PlannedFile) (disk : Disk) (bytes : List UInt8) (later : Disk) :
    Prop where
  prepared : (file.prepareOn disk).1 = .ok ()
  content : file.Content bytes
  added : (file.prepareOn disk).2.addFile file.path bytes = .ok later

/-- Why a class file cannot be written: its directory cannot be made; or else there is no class of
it; or else the class has no bytes; or else its file cannot be made. -/
inductive Fails (file : PlannedFile) (disk : Disk) : GenerateError → Prop
  | directory {path : String} {reason : FileError} (wanted : file.directory = some path)
      (failed : (file.prepareOn disk).1 = .error reason) : Fails file disk (.file path reason)
  | declaration {e : GenerateError} (prepared : (file.prepareOn disk).1 = .ok ())
      (failed : file.decl = .error e) : Fails file disk e
  | encoding {decl : ClassDecl} {reason : ClassFile.FormatError}
      (prepared : (file.prepareOn disk).1 = .ok ()) (declared : file.decl = .ok decl)
      (failed : decl.toBytes = .error reason) : Fails file disk (.format reason)
  | creation {bytes : List UInt8} {reason : FileError}
      (prepared : (file.prepareOn disk).1 = .ok ()) (content : file.Content bytes)
      (failed : (file.prepareOn disk).2.addFile file.path bytes = .error reason) :
      Fails file disk (.file file.path reason)

variable {file : PlannedFile} {disk later : Disk} {bytes : List UInt8} {e : GenerateError}

theorem writes_or_fails (file : PlannedFile) (disk : Disk) :
    (∃ bytes later, file.Writes disk bytes later) ∨ ∃ e, file.Fails disk e := by
  cases prepared : (file.prepareOn disk).1 with
  | error reason =>
    cases wanted : file.directory with
    | none => simp [prepareOn, wanted] at prepared
    | some path => exact .inr ⟨_, .directory wanted prepared⟩
  | ok =>
    cases declared : file.decl with
    | error e => exact .inr ⟨e, .declaration prepared declared⟩
    | ok decl =>
      cases encoded : decl.toBytes with
      | error reason => exact .inr ⟨_, .encoding prepared declared encoded⟩
      | ok bytes =>
        have content : file.Content bytes := ⟨decl, declared, encoded⟩
        cases added : (file.prepareOn disk).2.addFile file.path bytes with
        | error reason => exact .inr ⟨_, .creation prepared content added⟩
        | ok later => exact .inl ⟨bytes, later, prepared, content, added⟩

private theorem runOn_prepare (prepared : (file.prepareOn disk).1 = .ok ()) :
    runOn file.prepare disk = (.ok (), (file.prepareOn disk).2) := by
  unfold prepare
  unfold prepareOn at prepared ⊢
  split at prepared
  · exact runOn_createDirs (Prod.ext prepared rfl)
  · rfl

private theorem runOn_write_of_declared {decl : ClassDecl}
    (prepared : (file.prepareOn disk).1 = .ok ()) (declared : file.decl = .ok decl) :
    runOn file.write disk = runOn (writeClass file.path decl) (file.prepareOn disk).2 := by
  rw [write, runOn_bind_ok (runOn_prepare prepared), declared]
  rfl

theorem runOn_write_of_writes (writes : file.Writes disk bytes later) :
    runOn file.write disk = (.ok (), later) := by
  obtain ⟨prepared, ⟨decl, declared, encoded⟩, added⟩ := writes
  rw [runOn_write_of_declared prepared declared, runOn_writeClass encoded added]

theorem runOn_write_of_fails (fails : file.Fails disk e) :
    runOn file.write disk = (.error e, (file.prepareOn disk).2) := by
  cases fails with
  | @directory path reason wanted failed =>
    have made : runOn file.prepare disk = (.error (.file path reason), (file.prepareOn disk).2) := by
      rw [prepareOn, wanted] at failed ⊢
      rw [prepare, wanted]
      dsimp only at failed ⊢
      rw [runOn_createDirs_eq, failed]
      rfl
    rw [write, runOn_bind, made]
  | declaration prepared failed =>
    rw [write, runOn_bind_ok (runOn_prepare prepared), failed]
    rfl
  | encoding prepared declared failed =>
    rw [runOn_write_of_declared prepared declared]
    simp only [writeClass, failed]
    rfl
  | creation prepared content failed =>
    obtain ⟨decl, declared, encoded⟩ := content
    rw [runOn_write_of_declared prepared declared, runOn_writeClass_eq encoded, failed]

/-- A class whose file goes to a name that is free below the root is written, and no other file there
changes. -/
theorem exists_writes_below_root (file : PlannedFile) {decl : ClassDecl} {name : String}
    (prepared : file.prepareOn disk = (.ok (), disk)) (declared : file.decl = .ok decl)
    (encoded : ∃ bytes, decl.toBytes = .ok bytes) (named : file.path = name)
    (steps : Path.steps name = [name]) (step : name ≠ Path.stay ∧ name ≠ Path.back)
    (short : name.utf8ByteSize ≤ Disk.maxNameSize) (free : disk.node? [name] = none) :
    ∃ bytes later, file.Writes disk bytes later ∧
      ∀ other, other ≠ name → later.node? [other] = disk.node? [other] := by
  obtain ⟨bytes, written⟩ := encoded
  have added : (file.prepareOn disk).2.addFile file.path bytes =
      .ok (disk.putFile [name] bytes) := by
    rw [prepared, named]
    exact Disk.addFile_below_root bytes steps step short free
  refine ⟨bytes, _, ⟨congrArg Prod.fst prepared, ⟨decl, declared, written⟩, added⟩, ?_⟩
  intro other different
  rw [Disk.node?_putFile _ _ _ _ rfl, if_neg (by simpa using different)]

theorem creates_prepareOn (file : PlannedFile) (disk : Disk) :
    disk.Creates [] (file.prepareOn disk).2 := by
  unfold prepareOn
  split
  · exact Disk.creates_addPath disk _
  · exact .refl disk

theorem Writes.creates (writes : file.Writes disk bytes later) :
    disk.Creates [(place file.path, bytes)] later :=
  (creates_prepareOn file disk).trans (Disk.creates_addFile writes.added)

end PlannedFile

/-- Whether planned files are written one after another: from which disk, to which places, with
which bytes, and up to which disk. -/
inductive WritesAll : Disk → List PlannedFile → List (Location × List UInt8) → Disk → Prop
  | nil {disk : Disk} : WritesAll disk [] [] disk
  | cons {disk middle later : Disk} {file : PlannedFile} {files : List PlannedFile}
      {bytes : List UInt8} {created : List (Location × List UInt8)}
      (first : file.Writes disk bytes middle) (rest : WritesAll middle files created later) :
      WritesAll disk (file :: files) ((place file.path, bytes) :: created) later

theorem WritesAll.creates {disk later : Disk} {files : List PlannedFile}
    {created : List (Location × List UInt8)} (writes : WritesAll disk files created later) :
    disk.Creates created later := by
  induction writes with
  | nil => exact .refl _
  | cons first rest ih => exact first.creates.trans ih

/-- Planned files that are written one after another are all there in the end. -/
theorem WritesAll.exists_read {disk later : Disk} {files : List PlannedFile}
    {created : List (Location × List UInt8)} (writes : WritesAll disk files created later)
    {file : PlannedFile} (member : file ∈ files) (named : file.path.endsWith '/' = false) :
    ∃ bytes, file.Content bytes ∧ later.read file.path = .ok bytes := by
  induction writes with
  | nil => contradiction
  | @cons _ _ _ _ _ bytes _ first rest ih =>
    rcases List.mem_cons.mp member with rfl | below
    · exact ⟨bytes, first.content, rest.creates.grows.read (Disk.read_addFile first.added named)⟩
    · exact ih below

/-- Planned files in two parts are written part by part. -/
theorem WritesAll.append_inv {disk later : Disk} {first second : List PlannedFile}
    {created : List (Location × List UInt8)}
    (writes : WritesAll disk (first ++ second) created later) :
    ∃ early late middle, created = early ++ late ∧ WritesAll disk first early middle ∧
      WritesAll middle second late later := by
  induction first generalizing disk created with
  | nil => exact ⟨[], created, disk, rfl, .nil, writes⟩
  | cons file rest ih =>
    cases writes with
    | cons head tail =>
      obtain ⟨early, late, middle, rfl, front, back⟩ := ih tail
      exact ⟨_, late, middle, rfl, .cons head front, back⟩

/-- Planned files that can be written one after another are. -/
theorem WritesAll.runOn {disk later : Disk} {files : List PlannedFile}
    {created : List (Location × List UInt8)} (writes : WritesAll disk files created later) :
    runOn (files.forM PlannedFile.write) disk = (.ok (), later) := by
  induction writes with
  | nil => rfl
  | cons first rest ih =>
    exact (runOn_bind_ok (PlannedFile.runOn_write_of_writes first) _).trans ih

/-- Writing planned files ends with all of them written, or at the first one that fails. -/
theorem writesAll_or_stops (files : List PlannedFile) (disk : Disk) :
    (∃ created later, WritesAll disk files created later) ∨
    ∃ written file others created middle e,
      files = written ++ file :: others ∧ WritesAll disk written created middle ∧
        file.Fails middle e ∧
        runOn (files.forM PlannedFile.write) disk = (.error e, (file.prepareOn middle).2) := by
  induction files generalizing disk with
  | nil => exact .inl ⟨[], disk, .nil⟩
  | cons file rest ih =>
    have split : runOn ((file :: rest).forM PlannedFile.write) disk =
        runOn (file.write >>= fun _ => rest.forM PlannedFile.write) disk := rfl
    rcases file.writes_or_fails disk with ⟨bytes, middle, writes⟩ | ⟨e, fails⟩
    · rcases ih middle with ⟨created, later, all⟩ |
        ⟨written, other, others, created, last, e, rfl, all, fails, done⟩
      · exact .inl ⟨_, later, .cons writes all⟩
      · refine .inr ⟨file :: written, other, others, _, last, e, rfl, .cons writes all, fails, ?_⟩
        rw [split, runOn_bind_ok (PlannedFile.runOn_write_of_writes writes), done]
    · refine .inr ⟨[], file, rest, [], disk, e, rfl, .nil, fails, ?_⟩
      rw [split, runOn_bind, PlannedFile.runOn_write_of_fails fails]

end ResourceClasses.Generation
