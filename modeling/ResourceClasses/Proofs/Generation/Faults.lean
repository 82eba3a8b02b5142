import ResourceClasses.Proofs.Files.FaultyDisk
import ResourceClasses.Proofs.Generation.Workshop

/-!
Requests on a disk with faults: whatever goes wrong, nothing is lost, and what is left of a class
file that is not written is at most a beginning of it.
-/

set_option autoImplicit false

namespace ResourceClasses.Generation

open ClassFile (ClassDecl)
open Files (Disk FaultyDisk FileError FileStore Location runOn runOn_bind)

namespace PlannedFile

/-- What can be left of writing a class file, depending on the outcome: a failure leaves directories
at most, or also a file that holds a beginning of the class; otherwise the file holds all of it. -/
inductive Leaves (file : PlannedFile) (disk : Disk) : Except GenerateError PUnit → Disk → Prop
  | nothing {e : GenerateError} {later : Disk} (made : disk.Creates [] later) :
      Leaves file disk (.error e) later
  | beginning {middle later : Disk} {bytes begun : List UInt8} {reason : FileError}
      (made : disk.Creates [] middle) (content : file.Content bytes) (begins : begun <+: bytes)
      (added : middle.addFile file.path begun = .ok later) :
      Leaves file disk (.error (.file file.path reason)) later
  | whole {middle later : Disk} {bytes : List UInt8} (made : disk.Creates [] middle)
      (content : file.Content bytes) (added : middle.addFile file.path bytes = .ok later) :
      Leaves file disk (.ok ()) later

theorem Leaves.grows {file : PlannedFile} {disk later : Disk} {outcome : Except GenerateError PUnit}
    (leaves : file.Leaves disk outcome later) : disk.Grows later := by
  cases leaves with
  | nothing made => exact made.grows
  | beginning made _ _ added => exact made.grows.trans (Disk.grows_addFile added)
  | whole made _ added => exact made.grows.trans (Disk.grows_addFile added)

variable {file : PlannedFile} {disk later : FaultyDisk} {outcome : Except GenerateError PUnit}

private theorem creates_prepare (file : PlannedFile) (disk : FaultyDisk) :
    disk.toDisk.Creates [] (runOn file.prepare disk).2.toDisk := by
  unfold prepare
  split
  · exact FaultyDisk.creates_createDirs _ disk
  · exact .refl disk.toDisk

/-- A file that has been made holds whatever is written of its content. -/
private theorem leaves_of_writeContent {first : Disk} {middle : FaultyDisk} {location : Location}
    {bytes : List UInt8} (made : first.Creates [] disk.toDisk) (content : file.Content bytes)
    (free : disk.toDisk.freePlace file.path = .ok location)
    (empty : middle.toDisk = disk.toDisk.put location (.file []))
    (done : runOn (atPath file.path (FileStore.write (m := StateM FaultyDisk) location bytes))
      middle = (outcome, later)) : file.Leaves first outcome later.toDisk := by
  have holds : ∀ some_bytes : List UInt8,
      later.toDisk = middle.toDisk.put location (.file some_bytes) →
        disk.toDisk.addFile file.path some_bytes = .ok later.toDisk := by
    intro some_bytes put
    refine Disk.addFile_eq_ok_iff_freePlace.mpr ⟨location, free, ?_⟩
    rw [put, empty, Disk.putFile]
  rw [runOn_atPath] at done
  cases written : (FileStore.write (m := StateM FaultyDisk) location bytes).run middle with
  | mk result last =>
    rw [written] at done
    obtain ⟨rfl, rfl⟩ := Prod.mk.inj done
    rcases FaultyDisk.write_cases written with ⟨reason, begun, rfl, begins, put⟩ | ⟨rfl, put⟩
    · exact .beginning made content begins (holds begun put)
    · exact .whole made content (holds bytes put)

private theorem leaves_of_writeClass {decl : ClassDecl} {first : Disk}
    (made : first.Creates [] disk.toDisk) (declared : file.decl = .ok decl)
    (done : runOn (writeClass file.path decl) disk = (outcome, later)) :
    file.Leaves first outcome later.toDisk := by
  cases encoded : decl.toBytes with
  | error reason =>
    simp only [writeClass, encoded] at done
    obtain ⟨rfl, rfl⟩ := Prod.mk.inj done
    exact .nothing made
  | ok bytes =>
    simp only [writeClass, encoded] at done
    rw [runOn_bind, runOn_atPath] at done
    cases created : (FileStore.create file.path : StateM FaultyDisk _).run disk with
    | mk result middle =>
      rw [created] at done
      rcases FaultyDisk.create_cases created with ⟨reason, rfl, same⟩ | ⟨location, rfl, free, empty⟩
      · obtain ⟨rfl, rfl⟩ := Prod.mk.inj done
        rw [same]
        exact .nothing made
      · exact leaves_of_writeContent made ⟨decl, declared, encoded⟩ free empty done

/-- Writing a class file to a disk with faults leaves nothing but what belongs to it. -/
theorem leaves_of_write (done : runOn file.write disk = (outcome, later)) :
    file.Leaves disk.toDisk outcome later.toDisk := by
  have made := creates_prepare file disk
  rw [write, runOn_bind] at done
  cases prepared : runOn file.prepare disk with
  | mk result middle =>
    rw [prepared] at done made
    cases result with
    | error e =>
      obtain ⟨rfl, rfl⟩ := Prod.mk.inj done
      exact .nothing made
    | ok =>
      cases declared : file.decl with
      | error e =>
        rw [declared] at done
        obtain ⟨rfl, rfl⟩ := Prod.mk.inj done
        exact .nothing made
      | ok decl =>
        rw [declared] at done
        exact leaves_of_writeClass made declared done

/-- Class files that are written one after another, until one fails, lose nothing. -/
theorem grows_forM_write (files : List PlannedFile) (disk : FaultyDisk) :
    disk.toDisk.Grows (runOn (files.forM write) disk).2.toDisk := by
  induction files generalizing disk with
  | nil => exact .refl _
  | cons file rest ih =>
    rw [List.forM_eq_forM, List.forM_cons, runOn_bind]
    cases done : runOn file.write disk with
    | mk outcome middle =>
      have first := (leaves_of_write done).grows
      cases outcome with
      | error e => exact first
      | ok => exact first.trans (ih middle)

end PlannedFile

/-- Whether a program does on a disk that meets no faults what another one does on the disk alone. -/
def Undisturbed {β : Type} (run : ExceptT GenerateError (StateM FaultyDisk) β)
    (plain : ExceptT GenerateError (StateM Disk) β) : Prop :=
  ∀ disk, runOn run ⟨disk, []⟩ = ((runOn plain disk).1, ⟨(runOn plain disk).2, []⟩)

section

variable {β γ : Type} {run : ExceptT GenerateError (StateM FaultyDisk) β}
  {plain : ExceptT GenerateError (StateM Disk) β}

protected theorem Undisturbed.bind {next : β → ExceptT GenerateError (StateM FaultyDisk) γ}
    {plain_next : β → ExceptT GenerateError (StateM Disk) γ} (first : Undisturbed run plain)
    (rest : ∀ result, Undisturbed (next result) (plain_next result)) :
    Undisturbed (run >>= next) (plain >>= plain_next) := by
  intro disk
  rw [runOn_bind, runOn_bind, first]
  rcases runOn plain disk with ⟨_ | result, middle⟩
  · rfl
  · exact rest result middle

theorem undisturbed_forM {items : List β}
    {steps : β → ExceptT GenerateError (StateM FaultyDisk) PUnit}
    {plain_steps : β → ExceptT GenerateError (StateM Disk) PUnit}
    (each : ∀ item, Undisturbed (steps item) (plain_steps item)) :
    Undisturbed (items.forM steps) (items.forM plain_steps) := by
  induction items with
  | nil => exact fun _ => rfl
  | cons item rest ih => exact (each item).bind fun _ => ih

theorem undisturbed_createDirs (path : String) : Undisturbed (createDirs path) (createDirs path) :=
  fun _ => rfl

private theorem undisturbed_writeClass (path : String) (decl : ClassDecl) :
    Undisturbed (writeClass path decl) (writeClass path decl) := by
  unfold writeClass
  cases decl.toBytes with
  | error reason => exact fun _ => rfl
  | ok bytes => exact Undisturbed.bind (fun _ => rfl) fun _ _ => rfl

theorem PlannedFile.undisturbed_write (file : PlannedFile) : Undisturbed file.write file.write := by
  have prepared : Undisturbed file.prepare file.prepare := by
    unfold prepare
    split
    · exact undisturbed_createDirs _
    · exact fun _ => rfl
  have declared : Undisturbed (ExceptT.mk (pure file.decl)) (ExceptT.mk (pure file.decl)) :=
    fun _ => rfl
  exact prepared.bind fun _ => declared.bind fun decl => undisturbed_writeClass file.path decl

end

variable {ι α : Type} [ResourceField α]

namespace Builder

variable {builder : Builder} {request : Request α}

/-- A request that meets no faults is served as on the disk alone. -/
theorem serve_withoutFaults (builder : Builder) (request : Request α) (disk : Disk) :
    builder.serve request (⟨disk, []⟩ : FaultyDisk) =
      ⟨(builder.serve request disk).outcome, (builder.serve request disk).builder,
        ⟨(builder.serve request disk).disk, []⟩⟩ := by
  cases fields : request.selected.isEmpty with
  | true =>
    rw [serve_of_isEmpty fields, serve_of_isEmpty fields, undisturbed_createDirs]
    rcases runOn (createDirs (builder.directory request)) disk with ⟨_ | _, _⟩ <;> rfl
  | false =>
    rw [serve_of_fields fields, serve_of_fields fields,
      undisturbed_forM PlannedFile.undisturbed_write]
    rcases runOn ((builder.planned request.package request.selected).forM PlannedFile.write) disk
      with ⟨_ | _, _⟩ <;> rfl

end Builder

/-- A turn loses nothing, whatever faults it meets. -/
theorem Turn.grows_of_faults (turn : Turn ι α FaultyDisk) :
    turn.disk.toDisk.Grows turn.reply.disk.toDisk := by
  rw [reply]
  cases fields : turn.request.selected.isEmpty with
  | true =>
    have made : turn.disk.toDisk.Creates []
        (runOn (createDirs (turn.builder.directory turn.request)) turn.disk).2.toDisk :=
      FaultyDisk.creates_createDirs _ turn.disk
    rw [Builder.serve_of_isEmpty fields]
    cases done : runOn (createDirs (turn.builder.directory turn.request)) turn.disk with
    | mk outcome later =>
      rw [done] at made
      cases outcome <;> exact made.grows
  | false =>
    have grows := PlannedFile.grows_forM_write
      (turn.builder.planned turn.request.package turn.request.selected) turn.disk
    rw [Builder.serve_of_fields fields]
    cases done : runOn ((turn.builder.planned turn.request.package turn.request.selected).forM
      PlannedFile.write) turn.disk with
    | mk outcome later =>
      rw [done] at grows
      cases outcome <;> exact grows

end ResourceClasses.Generation
