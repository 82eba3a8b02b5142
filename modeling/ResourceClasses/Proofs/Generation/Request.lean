import ResourceClasses.Proofs.Generation.Planned

/-!
Requests: what a generation plans to write, and what a builder and a disk are after a request,
whether it succeeds or fails.
-/

set_option autoImplicit false

namespace ResourceClasses.Generation

open ClassFile (ClassDecl)
open Files (Disk FileStore Location place runOn runOn_bind)

section

variable {α : Type} [ResourceField α]

/-- Where the outer class of a package is written. -/
def outerPath (outDir package : String) : String :=
  Path.join (Name.packageDir outDir package) "R.class"

/-- Where the class of a resource type of a package is written. -/
def innerPath (outDir package : String) (type : ResourceType) : String :=
  Path.join (Name.packageDir outDir package) ("R$" ++ type.name ++ ".class")

/-- Where the class that holds the package id is written. -/
def sharedIdPath (outDir : String) (shared : SharedId) : String :=
  Path.join outDir (shared.internalName ++ ".class")

/-- The path of a class file does not end like that of a directory. -/
theorem endsWith_join_class (base name : String) :
    (Path.join base (name ++ ".class")).endsWith '/' = false := by
  have last : ∀ front : String, (front ++ (name ++ ".class")).endsWith '/' = false := by
    intro front
    have suffix : ".class".toList = ['.', 'c', 'l', 'a', 's', 's'] := by decide
    rw [String.endsWith_char_eq_getLast?, String.toList_append, String.toList_append, suffix]
    simp
  unfold Path.join
  split
  · rw [← String.empty_append (s := name ++ ".class")]
    exact last ""
  · split
    · exact last base
    · exact last _

/-- The file of the outer class of a package, in the directory of the package. -/
def Builder.outerFile (builder : Builder) (package : String) (types : List ResourceType) :
    PlannedFile where
  directory := some (Name.packageDir builder.outDir package)
  decl := .ok (outerClass (Name.outer package) builder.config types)
  path := outerPath builder.outDir package

theorem Builder.path_outerFile (builder : Builder) (package : String) (types : List ResourceType) :
    (builder.outerFile package types).path = outerPath builder.outDir package := by
  rw [outerFile]

/-- The file of the class of a resource type of a package. -/
def Builder.innerFile (builder : Builder) (package : String) (entry : ResourceType × List α) :
    PlannedFile where
  directory := none
  decl := innerClass (Name.outer package) entry.1 entry.2 (Name.packageDir builder.outDir package)
    builder.config
  path := innerPath builder.outDir package entry.1

/-- The class files of a package: the outer class and the classes of its resource types. -/
def Builder.packageFiles (builder : Builder) (package : String) (fields : FieldTable α) :
    List PlannedFile :=
  builder.outerFile package (fields.toList.map Prod.fst) ::
    fields.toList.map (builder.innerFile package)

/-- The file of the class that holds the package id. -/
def sharedIdFile (outDir : String) (shared : SharedId) : PlannedFile where
  directory := some (Path.directory (sharedIdPath outDir shared))
  decl := .ok (sharedIdClass shared)
  path := sharedIdPath outDir shared

theorem path_sharedIdFile (outDir : String) (shared : SharedId) :
    (sharedIdFile outDir shared).path = sharedIdPath outDir shared := by
  rw [sharedIdFile]

/-- The file of the class that holds the package id, as long as it is to be written. -/
def Builder.dueFiles (builder : Builder) : List PlannedFile :=
  match builder.config.sharedId with
  | none => []
  | some shared => if builder.sharedIdWritten then [] else [sharedIdFile builder.outDir shared]

/-- The class files that a generation with at least one field is to write, in order. -/
def Builder.planned (builder : Builder) (package : String) (fields : FieldTable α) :
    List PlannedFile :=
  builder.packageFiles package fields ++ builder.dueFiles

theorem Builder.outerFile_of_planned {builder : Builder} {package : String} {fields : FieldTable α}
    {file : PlannedFile} {others : List PlannedFile}
    (split : builder.planned package fields = file :: others) :
    builder.outerFile package (fields.toList.map Prod.fst) = file := by
  rw [planned, packageFiles, List.cons_append, List.cons.injEq] at split
  exact split.1

/-- A builder all of whose planned files are written. -/
def Builder.finished (builder : Builder) : Builder :=
  { builder with sharedIdWritten := builder.sharedIdWritten || builder.config.sharedId.isSome }

end

section

variable {m : Type → Type} [Monad m] [LawfulMonad m] {β γ : Type}

theorem onFiles_bind (step : ExceptT GenerateError m β)
    (next : β → ExceptT GenerateError m γ) :
    (onFiles (step >>= next) : Building m γ) = onFiles step >>= fun result =>
      onFiles (next result) := by
  refine ExceptT.ext (StateT.ext fun builder => ?_)
  simp only [onFiles, ExceptT.run_mk, ExceptT.run_bind, StateT.run_bind, StateT.run_lift,
    bind_assoc, pure_bind]
  congr 1
  funext outcome
  cases outcome <;> simp

theorem onFiles_pure (result : β) :
    (onFiles (pure result) : Building m β) = pure result := by
  refine ExceptT.ext (StateT.ext fun builder => ?_)
  simp [onFiles]

theorem onFiles_forM (steps : β → ExceptT GenerateError m PUnit) (items : List β) :
    (onFiles (items.forM steps) : Building m PUnit) =
      items.forM fun item => onFiles (steps item) := by
  induction items with
  | nil => exact onFiles_pure _
  | cons item rest ih =>
    rw [List.forM_eq_forM, List.forM_cons, onFiles_bind]
    exact bind_congr fun _ => ih

end

section

variable {σ β γ : Type}

/-- What steps of a builder give when they run from a builder and a disk, and the builder and the
disk that they leave, whether or not they fail. -/
def buildOn (steps : Building (StateM σ) β) (builder : Builder) (disk : σ) :
    (Except GenerateError β × Builder) × σ :=
  (steps.run.run builder).run disk

theorem buildOn_get_bind (next : Builder → Building (StateM σ) β) (builder : Builder) (disk : σ) :
    buildOn (get >>= next) builder disk = buildOn (next builder) builder disk := rfl

/-- A step on files leaves the builder as it was, and what fails there ends all steps. -/
theorem buildOn_onFiles_bind (step : ExceptT GenerateError (StateM σ) β)
    (next : β → Building (StateM σ) γ) (builder : Builder) (disk : σ) :
    buildOn (onFiles step >>= next) builder disk =
      match runOn step disk with
      | (.ok result, middle) => buildOn (next result) builder middle
      | (.error e, middle) => ((.error e, builder), middle) := by
  have split : buildOn (onFiles step >>= next) builder disk =
      match runOn step disk with
      | (outcome, middle) => (((ExceptT.bindCont next outcome).run builder).run middle) := rfl
  rw [split]
  rcases runOn step disk with ⟨_ | _, _⟩ <;> rfl

theorem runOn_run (builder : Builder) (steps : Building (StateM σ) β) (disk : σ) :
    runOn (builder.run steps) disk =
      match buildOn steps builder disk with
      | ((outcome, builder), later) => (outcome.map fun result => (result, builder), later) := rfl

variable [FileStore (StateM σ)]

private theorem write_declared (directory path : String) (decl : ClassDecl) :
    (PlannedFile.write ⟨some directory, .ok decl, path⟩ :
        ExceptT GenerateError (StateM σ) Unit) =
      createDirs directory >>= fun _ => writeClass path decl := rfl

private theorem writes_sharedIdFile (outDir : String) (shared : SharedId) :
    ([sharedIdFile outDir shared].forM PlannedFile.write :
        ExceptT GenerateError (StateM σ) PUnit) = writeSharedId outDir shared := by
  rw [PlannedFile.forM_write_singleton]
  exact write_declared _ _ _

/-- The class that holds the package id is written if it is due, and the builder notes it after
that. -/
private theorem buildOn_finish_bind (next : Building (StateM σ) β) (builder : Builder) (disk : σ) :
    buildOn (finish >>= fun _ => next) builder disk =
      match runOn (builder.dueFiles.forM PlannedFile.write) disk with
      | (.ok _, later) => buildOn next builder.finished later
      | (.error e, later) => ((.error e, builder), later) := by
  obtain ⟨outDir, config, written⟩ := builder
  rw [finish, bind_assoc, buildOn_get_bind]
  unfold Builder.dueFiles Builder.finished
  dsimp only
  cases config.sharedId with
  | none => cases written <;> rfl
  | some shared =>
    cases written with
    | true => rfl
    | false =>
      simp only [Bool.false_eq_true, if_false]
      rw [writes_sharedIdFile, bind_assoc, buildOn_onFiles_bind]
      rcases runOn (writeSharedId outDir shared) disk with ⟨_ | _, _⟩ <;> rfl

variable {α : Type} [ResourceField α]

private theorem write_packageFiles (builder : Builder) (package : String) (fields : FieldTable α) :
    ((builder.packageFiles package fields).forM PlannedFile.write :
        ExceptT GenerateError (StateM σ) PUnit) =
      createDirs (Name.packageDir builder.outDir package) >>= fun _ =>
        writeClass (Path.join (Name.packageDir builder.outDir package) "R.class")
          (outerClass (Name.outer package) builder.config (fields.toList.map Prod.fst)) >>= fun _ =>
            fields.toList.forM (writeInner (Name.outer package)
              (Name.packageDir builder.outDir package) builder.config) := by
  have outer : ((builder.outerFile package (fields.toList.map Prod.fst)).write :
      ExceptT GenerateError (StateM σ) Unit) =
        createDirs (Name.packageDir builder.outDir package) >>= fun _ =>
          writeClass (Path.join (Name.packageDir builder.outDir package) "R.class")
            (outerClass (Name.outer package) builder.config (fields.toList.map Prod.fst)) :=
    write_declared _ _ _
  have inner : ∀ entry : ResourceType × List α,
      ((builder.innerFile package entry).write : ExceptT GenerateError (StateM σ) Unit) =
        writeInner (Name.outer package) (Name.packageDir builder.outDir package) builder.config
          entry := fun _ => rfl
  simp only [Builder.packageFiles, List.forM_eq_forM, List.forM_cons, List.forM_map, outer, inner,
    bind_assoc]

/-- The steps of a builder for a package with fields write the planned files one after another. The
builder changes only once all of them are written. -/
theorem buildOn_writeClasses (builder : Builder) (package : String) {fields : FieldTable α}
    (some_field : fields.isEmpty = false) (disk : σ) :
    buildOn (writeClasses package fields) builder disk =
      match runOn ((builder.planned package fields).forM PlannedFile.write) disk with
      | (.ok _, later) => ((.ok fields.size, builder.finished), later)
      | (.error e, later) => ((.error e, builder), later) := by
  have parts : buildOn (writeClasses package fields) builder disk =
      buildOn (onFiles ((builder.packageFiles package fields).forM PlannedFile.write) >>= fun _ =>
        finish >>= fun _ => pure fields.size) builder disk := by
    rw [writeClasses, buildOn_get_bind, write_packageFiles]
    simp only [some_field, Bool.false_eq_true, if_false, onFiles_bind, onFiles_forM, bind_assoc]
  rw [parts, buildOn_onFiles_bind, Builder.planned, PlannedFile.forM_write_append, runOn_bind]
  rcases runOn ((builder.packageFiles package fields).forM PlannedFile.write) disk with
    ⟨_ | _, middle⟩
  · rfl
  · dsimp only
    rw [buildOn_finish_bind]
    rcases runOn (builder.dueFiles.forM PlannedFile.write) middle with ⟨_ | _, _⟩ <;> rfl

theorem buildOn_writeClasses_of_isEmpty (builder : Builder) (package : String)
    {fields : FieldTable α} (no_field : fields.isEmpty = true) (disk : σ) :
    buildOn (writeClasses package fields) builder disk =
      match runOn (createDirs (Name.packageDir builder.outDir package)) disk with
      | (.ok _, later) => ((.ok 0, builder), later)
      | (.error e, later) => ((.error e, builder), later) := by
  rw [writeClasses, buildOn_get_bind]
  simp only [no_field, if_true]
  rw [buildOn_onFiles_bind]
  rcases runOn (createDirs (Name.packageDir builder.outDir package)) disk with ⟨_ | _, _⟩ <;> rfl

end

section

variable {α : Type} [ResourceField α] {builder finished : Builder} {package : String}
  {fields : FieldTable α} {disk later : Disk} {count : Nat}

/-- A generation with fields that succeeds has written all its planned files. -/
theorem writesAll_of_generate (some_field : fields.isEmpty = false)
    (done : runOn (builder.generate package fields) disk = (.ok (count, finished), later)) :
    count = fields.size ∧
      ∃ created, WritesAll disk (builder.planned package fields) created later := by
  rw [Builder.generate, runOn_run, buildOn_writeClasses builder package some_field] at done
  rcases writesAll_or_stops (builder.planned package fields) disk with
    ⟨created, last, writes⟩ | ⟨_, _, _, _, _, _, _, _, _, failed⟩
  · rw [writes.runOn] at done
    cases done
    exact ⟨rfl, created, writes⟩
  · rw [failed] at done
    cases done

/-- A generation with fields all of whose planned files can be written succeeds. -/
theorem runOn_generate_of_writesAll {created : List (Location × List UInt8)}
    (some_field : fields.isEmpty = false)
    (writes : WritesAll disk (builder.planned package fields) created later) :
    runOn (builder.generate package fields) disk =
      (.ok (fields.size, builder.finished), later) := by
  rw [Builder.generate, runOn_run, buildOn_writeClasses builder package some_field, writes.runOn]
  rfl

/-- A generation that succeeds leaves the class of each resource type with fields on the disk. -/
theorem exists_inner_of_generate
    (done : runOn (builder.generate package fields) disk = (.ok (count, finished), later))
    {entry : ResourceType × List α} (member : entry ∈ fields.toList) :
    ∃ decl bytes,
      innerClass (Name.outer package) entry.1 entry.2 (Name.packageDir builder.outDir package)
          builder.config = .ok decl ∧
        decl.toBytes = .ok bytes ∧
          later.read (innerPath builder.outDir package entry.1) = .ok bytes := by
  have some_field : fields.isEmpty = false := by
    rw [FieldTable.isEmpty, List.isEmpty_eq_false_iff]
    intro nothing
    rw [FieldTable.toList, nothing] at member
    contradiction
  obtain ⟨-, created, writes⟩ := writesAll_of_generate some_field done
  have planned : builder.innerFile package entry ∈ builder.planned package fields :=
    List.mem_append_left _ (List.mem_cons_of_mem _ (List.mem_map_of_mem member))
  obtain ⟨bytes, ⟨decl, made, encoded⟩, found⟩ :=
    writes.exists_read planned (endsWith_join_class _ _)
  exact ⟨decl, bytes, made, encoded, found⟩

end

/-- What a builder is asked for: the classes of a package, either with all of the given fields or
with those that a table of fields to keep has too. -/
structure Request (α : Type) [ResourceField α] where
  package : String
  fields : FieldTable α
  keep : Option (FieldTable α) := none

variable {α : Type} [ResourceField α]

namespace Request

/-- The fields that are left of a request. -/
def selected (request : Request α) : FieldTable α :=
  match request.keep with
  | none => request.fields
  | some keep => request.fields.filter keep

/-- The steps of a builder that a request asks for. -/
def generation {m : Type → Type} [Monad m] [FileStore m] (request : Request α) : Building m Nat :=
  match request.keep with
  | none => writeClasses request.package request.fields
  | some keep => writeClasses request.package (request.fields.filter keep)

theorem generation_eq {m : Type → Type} [Monad m] [FileStore m] (request : Request α) :
    (request.generation : Building m Nat) = writeClasses request.package request.selected := by
  unfold generation selected
  cases request.keep <;> rfl

end Request

/-- What a request comes to: the number of fields or an error, and the builder and the disk after
it. -/
structure Reply (σ : Type := Disk) where
  outcome : Except GenerateError Nat
  builder : Builder
  disk : σ

namespace Builder

/-- Serves a request on a disk: the reply has the builder and the disk that the steps leave, up to
the one that fails if any does. -/
def serve {σ : Type} [FileStore (StateM σ)] (builder : Builder) (request : Request α) (disk : σ) :
    Reply σ :=
  match buildOn request.generation builder disk with
  | ((outcome, next), later) => ⟨outcome, next, later⟩

/-- The directory of the package that a request is for. -/
def directory (builder : Builder) (request : Request α) : String :=
  Name.packageDir builder.outDir request.package

/-- All that a request can come to: without fields, the directory of the package is made or cannot
be made; with fields, all planned files are written, or those before one that fails. -/
inductive Serves (builder : Builder) (request : Request α) (disk : Disk) : Reply → Prop
  | empty {later : Disk} (no_field : request.selected.isEmpty = true)
      (made : disk.addPath (builder.directory request) = (.ok (), later)) :
      Serves builder request disk ⟨.ok 0, builder, later⟩
  | blocked {reason : Files.FileError} {later : Disk} (no_field : request.selected.isEmpty = true)
      (failed : disk.addPath (builder.directory request) = (.error reason, later)) :
      Serves builder request disk
        ⟨.error (.file (builder.directory request) reason), builder, later⟩
  | complete {created : List (Location × List UInt8)} {later : Disk}
      (some_field : request.selected.isEmpty = false)
      (writes : WritesAll disk (builder.planned request.package request.selected) created later) :
      Serves builder request disk ⟨.ok request.selected.size, builder.finished, later⟩
  | stopped {written others : List PlannedFile} {file : PlannedFile}
      {created : List (Location × List UInt8)} {middle : Disk} {e : GenerateError}
      (some_field : request.selected.isEmpty = false)
      (split : builder.planned request.package request.selected = written ++ file :: others)
      (writes : WritesAll disk written created middle) (fails : file.Fails middle e) :
      Serves builder request disk ⟨.error e, builder, (file.prepareOn middle).2⟩

section

variable {σ : Type} [FileStore (StateM σ)] {builder : Builder} {request : Request α}

/-- A request without fields makes the directory of the package. -/
theorem serve_of_isEmpty (no_field : request.selected.isEmpty = true) (disk : σ) :
    builder.serve request disk =
      match runOn (createDirs (builder.directory request)) disk with
      | (.ok _, later) => ⟨.ok 0, builder, later⟩
      | (.error e, later) => ⟨.error e, builder, later⟩ := by
  rw [serve, request.generation_eq, buildOn_writeClasses_of_isEmpty _ _ no_field, directory]
  rcases runOn (createDirs (Name.packageDir builder.outDir request.package)) disk with
    ⟨_ | _, _⟩ <;> rfl

/-- A request with fields writes its planned files, and the builder is another one after it only if
all of them are written. -/
theorem serve_of_fields (some_field : request.selected.isEmpty = false) (disk : σ) :
    builder.serve request disk =
      match runOn ((builder.planned request.package request.selected).forM PlannedFile.write)
        disk with
      | (.ok _, later) => ⟨.ok request.selected.size, builder.finished, later⟩
      | (.error e, later) => ⟨.error e, builder, later⟩ := by
  rw [serve, request.generation_eq, buildOn_writeClasses _ _ some_field]
  rcases runOn ((builder.planned request.package request.selected).forM PlannedFile.write) disk with
    ⟨_ | _, _⟩ <;> rfl

end

/-- A request without fields succeeds if the directory of its package can be made. -/
theorem serve_of_made {builder : Builder} {request : Request α} {disk later : Disk}
    (no_field : request.selected.isEmpty = true)
    (made : disk.addPath (builder.directory request) = (.ok (), later)) :
    builder.serve request disk = ⟨.ok 0, builder, later⟩ := by
  rw [serve_of_isEmpty no_field, runOn_createDirs made]

theorem serve_of_refused {builder : Builder} {request : Request α} {disk later : Disk}
    {reason : Files.FileError} (no_field : request.selected.isEmpty = true)
    (failed : disk.addPath (builder.directory request) = (.error reason, later)) :
    builder.serve request disk =
      ⟨.error (.file (builder.directory request) reason), builder, later⟩ := by
  rw [serve_of_isEmpty no_field, runOn_createDirs_eq, failed]
  rfl

/-- A request with fields all of whose planned files can be written succeeds. -/
theorem serve_of_writesAll {builder : Builder} {request : Request α} {disk later : Disk}
    {created : List (Location × List UInt8)} (some_field : request.selected.isEmpty = false)
    (writes : WritesAll disk (builder.planned request.package request.selected) created later) :
    builder.serve request disk = ⟨.ok request.selected.size, builder.finished, later⟩ := by
  rw [serve_of_fields some_field, writes.runOn]

theorem serves_serve (builder : Builder) (request : Request α) (disk : Disk) :
    builder.Serves request disk (builder.serve request disk) := by
  cases some_field : request.selected.isEmpty with
  | true =>
    cases made : disk.addPath (builder.directory request) with
    | mk result later =>
      cases result with
      | ok =>
        rw [serve_of_made some_field made]
        exact .empty some_field made
      | error reason =>
        rw [serve_of_refused some_field made]
        exact .blocked some_field made
  | false =>
    rcases writesAll_or_stops (builder.planned request.package request.selected) disk with
      ⟨created, later, writes⟩ |
      ⟨written, file, others, created, middle, e, split, writes, fails, done⟩
    · rw [serve_of_writesAll some_field writes]
      exact .complete some_field writes
    · rw [serve_of_fields some_field, done]
      exact .stopped some_field split writes fails

/-- A request creates no file unless it writes the outer class of the package first. -/
theorem Serves.nothing_or_outer {builder : Builder} {request : Request α} {disk : Disk}
    {reply : Reply} (serves : builder.Serves request disk reply) :
    disk.Creates [] reply.disk ∨
      ∃ bytes middle,
        (builder.outerFile request.package (request.selected.toList.map Prod.fst)).Writes disk bytes
            middle ∧
          middle.Grows reply.disk := by
  have made := Disk.creates_addPath disk (builder.directory request)
  cases serves with
  | empty _ done =>
    rw [done] at made
    exact .inl made
  | blocked _ failed =>
    rw [failed] at made
    exact .inl made
  | complete _ writes =>
    cases writes with
    | cons first rest => exact .inr ⟨_, _, first, rest.creates.grows⟩
  | @stopped written _ file _ middle _ _ split writes _ =>
    have after := file.creates_prepareOn middle
    cases writes with
    | nil => exact .inl after
    | cons first rest =>
      rw [← outerFile_of_planned split] at first
      exact .inr ⟨_, _, first, rest.creates.grows.trans after.grows⟩

theorem Serves.grows {builder : Builder} {request : Request α} {disk : Disk} {reply : Reply}
    (serves : builder.Serves request disk reply) : disk.Grows reply.disk := by
  rcases serves.nothing_or_outer with nothing | ⟨bytes, middle, first, rest⟩
  · exact nothing.grows
  · exact first.creates.grows.trans rest

/-- The files that a request creates are those of a prefix of the plan, and of the whole plan exactly
if it succeeds; if it fails, the first file that is not written says why, and the builder stays as
it was. A request without fields makes the directory of the package and nothing else. -/
theorem serve_writes_prefix (builder : Builder) (request : Request α) (disk : Disk) :
    let reply := builder.serve request disk
    if request.selected.isEmpty then
      reply.builder = builder ∧ disk.Creates [] reply.disk ∧
        match disk.addPath (builder.directory request) with
        | (.ok (), later) =>
          reply.outcome = .ok 0 ∧ reply.disk = later ∧
            later.node? (place (builder.directory request)) = some .directory
        | (.error reason, later) =>
          reply.outcome = .error (.file (builder.directory request) reason) ∧ reply.disk = later
    else
      ∃ written rest created middle,
        builder.planned request.package request.selected = written ++ rest ∧
          WritesAll disk written created middle ∧ disk.Creates created reply.disk ∧
          (rest = [] ↔ ∃ count, reply.outcome = .ok count) ∧
          ∀ e, reply.outcome = .error e →
            reply.builder = builder ∧ ∃ file others, rest = file :: others ∧ file.Fails middle e := by
  intro reply
  have serves : builder.Serves request disk reply := builder.serves_serve request disk
  generalize reply = reply at serves
  cases serves with
  | empty no_field made =>
    have created := Disk.creates_addPath disk (builder.directory request)
    rw [made] at created
    rw [if_pos no_field, made]
    exact ⟨rfl, created, rfl, rfl, Disk.directory_of_addPath made⟩
  | blocked no_field failed =>
    have created := Disk.creates_addPath disk (builder.directory request)
    rw [failed] at created
    rw [if_pos no_field, failed]
    exact ⟨rfl, created, rfl, rfl⟩
  | @complete created later some_field writes =>
    rw [if_neg (by rw [some_field]; exact Bool.false_ne_true)]
    refine ⟨_, [], created, later, (List.append_nil _).symm, writes, writes.creates, ?_, ?_⟩
    · exact ⟨fun _ => ⟨_, rfl⟩, fun _ => rfl⟩
    · intro e failed
      contradiction
  | @stopped written others file created middle e some_field split writes fails =>
    rw [if_neg (by rw [some_field]; exact Bool.false_ne_true)]
    have kept := writes.creates.trans (file.creates_prepareOn middle)
    rw [List.append_nil] at kept
    refine ⟨written, file :: others, created, middle, split, writes, kept, ?_, ?_⟩
    · constructor
      · intro never
        contradiction
      · rintro ⟨count, never⟩
        contradiction
    · rintro _ ⟨⟩
      exact ⟨rfl, file, others, rfl, fails⟩

end Builder

end ResourceClasses.Generation
