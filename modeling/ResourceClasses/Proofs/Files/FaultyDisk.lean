import ResourceClasses.Files.FaultyDisk
import ResourceClasses.Proofs.Files.Place

/-!
Operations on a disk with faults: each does what it does on any disk, or, at a fault, a part of that.
-/

set_option autoImplicit false

namespace ResourceClasses.Files.FaultyDisk

variable {β : Type} {disk later : FaultyDisk} {path : String} {location : Location}
  {content : List UInt8}

theorem operate_cases {whole : StateM Disk (Except FileError β)} {part : Nat → Disk → Disk}
    {result : Except FileError β} (done : (operate whole part).run disk = (result, later)) :
    (∃ fault : Fault, result = .error fault.reason ∧
      later.toDisk = part fault.done disk.toDisk) ∨
    whole.run disk.toDisk = (result, later.toDisk) := by
  obtain ⟨disk, faults⟩ := disk
  rcases faults with _ | ⟨_ | fault, rest⟩
  · cases done
    exact .inr rfl
  · cases done
    exact .inr rfl
  · cases done
    exact .inl ⟨fault, rfl, rfl⟩

/-- Making directories creates no file, whether or not it meets a fault. -/
theorem creates_createDirs (path : String) (disk : FaultyDisk) :
    disk.toDisk.Creates []
      ((FileStore.createDirs path : StateM FaultyDisk _).run disk).2.toDisk := by
  cases done : (FileStore.createDirs path : StateM FaultyDisk _).run disk with
  | mk result later =>
    rcases operate_cases done with ⟨fault, -, part⟩ | whole
    · rw [part]
      exact Disk.creates_addDirectories disk.toDisk [] _
    · have made : disk.toDisk.addPath path = (result, later.toDisk) := whole
      have creates := Disk.creates_addPath disk.toDisk path
      rw [made] at creates
      exact creates

/-- A file that is made is empty, at a place where nothing was; and one that is not leaves nothing. -/
theorem create_cases {result : Except FileError Location}
    (done : (FileStore.create path : StateM FaultyDisk _).run disk = (result, later)) :
    (∃ reason, result = .error reason ∧ later.toDisk = disk.toDisk) ∨
    ∃ location, result = .ok location ∧ disk.toDisk.freePlace path = .ok location ∧
      later.toDisk = disk.toDisk.put location (.file []) := by
  rcases operate_cases done with ⟨fault, failed, part⟩ | whole
  · exact .inl ⟨fault.reason, failed, part⟩
  · have made : disk.toDisk.create path = (result, later.toDisk) := whole
    unfold Disk.create at made
    cases free : disk.toDisk.freePlace path with
    | error reason =>
      rw [free] at made
      obtain ⟨rfl, same⟩ := Prod.mk.inj made
      exact .inl ⟨reason, rfl, same.symm⟩
    | ok location =>
      rw [free] at made
      obtain ⟨rfl, same⟩ := Prod.mk.inj made
      exact .inr ⟨location, rfl, rfl, same.symm⟩

/-- Writing a file leaves its content, or a beginning of it at a fault. -/
theorem write_cases {result : Except FileError Unit}
    (done : (FileStore.write (m := StateM FaultyDisk) location content).run disk =
      (result, later)) :
    (∃ reason begun, result = .error reason ∧ begun <+: content ∧
      later.toDisk = disk.toDisk.put location (.file begun)) ∨
    result = .ok () ∧ later.toDisk = disk.toDisk.put location (.file content) := by
  rcases operate_cases done with ⟨fault, failed, part⟩ | whole
  · exact .inl ⟨fault.reason, _, failed, List.take_prefix fault.done content, part⟩
  · obtain ⟨rfl, same⟩ := Prod.mk.inj whole
    exact .inr ⟨rfl, same.symm⟩

end ResourceClasses.Files.FaultyDisk
