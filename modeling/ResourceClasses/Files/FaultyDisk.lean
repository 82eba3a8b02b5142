import ResourceClasses.Files.Disk

/-!
Disks with faults: any operation on files can go wrong part of the way, for a reason that is not on
the disk, and the next one can go right again.
-/

set_option autoImplicit false

namespace ResourceClasses.Files

/-- Why an operation goes wrong, and how many of its parts are done by then. -/
structure Fault where
  done : Nat
  reason : FileError
  deriving DecidableEq, Repr

/-- A disk with what its next operations meet, one after another: a fault, or none. Operations behind
the last one of the list meet none. -/
structure FaultyDisk extends Disk where
  faults : List (Option Fault)

namespace FaultyDisk

/-- An operation that does what it does on any disk, or, if it meets a fault, some of its parts. -/
def operate {β : Type} (whole : StateM Disk (Except FileError β)) (part : Nat → Disk → Disk) :
    StateM FaultyDisk (Except FileError β) := fun ⟨disk, faults⟩ =>
  match faults with
  | some fault :: rest => (.error fault.reason, ⟨part fault.done disk, rest⟩)
  | _ =>
    let (result, later) := whole.run disk
    (result, ⟨later, faults.tail⟩)

end FaultyDisk

/-- The parts of an operation are the steps along which directories are made, or the bytes of a
content; making a file and reading one have none. -/
instance : FileStore (StateM FaultyDisk) where
  Handle := Location
  createDirs path :=
    FaultyDisk.operate (FileStore.createDirs path) fun done disk =>
      (disk.addDirectories [] ((Path.steps path).take done)).2
  create path := FaultyDisk.operate (FileStore.create path) fun _ disk => disk
  write location content :=
    FaultyDisk.operate (FileStore.write (m := StateM Disk) location content) fun done disk =>
      disk.put location (.file (content.take done))
  contents path := FaultyDisk.operate (FileStore.contents path) fun _ disk => disk

end ResourceClasses.Files
