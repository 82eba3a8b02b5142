import Mathlib.Data.List.Perm.Basic
import ResourceClasses.Proofs.Files.Passage

/-!
Deeds: directories to make and files to write, one after another. What some deeds add to a disk does
not depend on their order; whether they can be done does only where one deed needs directories that
another one makes.
-/

set_option autoImplicit false

namespace ResourceClasses.Files

/-- Something to be done on a disk. -/
inductive Deed
  | directories (path : String)
  | file (path : String) (content : List UInt8)

namespace Deed

def path : Deed → String
  | directories path | file path _ => path

/-- Whether a deed can be done on a disk and leaves another one. -/
def Done (deed : Deed) (disk later : Disk) : Prop :=
  match deed with
  | directories path => disk.addPath path = (.ok (), later)
  | file path content => disk.addFile path content = .ok later

/-- The directories that a deed makes where they are missing. -/
def made : Deed → List Location
  | directories path => passed [] (Path.steps path)
  | file _ _ => []

/-- The files that a deed writes, with their places. -/
def created : Deed → List (Location × List UInt8)
  | directories _ => []
  | file path content => [(place path, content)]

/-- Whether the directories that a deed needs are there. -/
def Supported (there : Location → Prop) : Deed → Prop
  | directories path => Settles there path
  | file path _ => ∀ origin ∈ origins [] (Path.steps path), there origin

variable {deed : Deed} {disk later target : Disk}

theorem Supported.mono {there known : Location → Prop} (supported : deed.Supported there)
    (each : ∀ other, there other → known other) : deed.Supported known := by
  cases deed with
  | directories path => exact SettlesFrom.mono supported each
  | file path content => exact fun origin member => each origin (supported origin member)

theorem Done.fits (done : deed.Done disk later) : Fits deed.path := by
  cases deed with
  | directories path => exact (Disk.of_addPath done).1
  | file path content => exact (Disk.addFile_eq_ok_iff.mp done).1

theorem Done.supported (done : deed.Done disk later) : deed.Supported disk.HasDirectory := by
  cases deed with
  | directories path => exact (Disk.of_addPath done).2.1
  | file path content => exact (Disk.addFile_eq_ok_iff.mp done).2.1

theorem Done.adds (done : deed.Done disk later) : disk.Adds deed.made deed.created later := by
  cases deed with
  | directories path => exact (Disk.of_addPath done).2.2
  | file path content =>
    refine ⟨Disk.creates_addFile done, fun location => ?_⟩
    obtain ⟨-, -, free, rfl⟩ := Disk.addFile_eq_ok_iff.mp done
    rw [Disk.HasDirectory, Disk.node?_putFile _ _ _ _ (Disk.below_root free)]
    split
    · rename_i same
      simp [same, Disk.HasDirectory, free, made]
    · simp [Disk.HasDirectory, made]

/-- A supported deed whose file is free can be done, towards a disk that has all that it adds. -/
theorem exists_done (fits : Fits deed.path) (supported : deed.Supported disk.HasDirectory)
    (grows : disk.Grows target) (wanted : ∀ other ∈ deed.made, target.HasDirectory other)
    (free : ∀ file ∈ deed.created, disk.node? file.1 = none) : ∃ later, deed.Done disk later := by
  cases deed with
  | directories path => exact Disk.exists_addPath fits supported grows wanted
  | file path content =>
    have place_free := free _ List.mem_cons_self
    exact ⟨_, Disk.addFile_eq_ok_iff.mpr ⟨fits, supported, place_free, rfl⟩⟩

end Deed

/-- Whether deeds can be done one after another and leave another disk. -/
inductive AllDone : Disk → List Deed → Disk → Prop
  | nil {disk : Disk} : AllDone disk [] disk
  | cons {disk middle later : Disk} {deed : Deed} {deeds : List Deed}
      (first : deed.Done disk middle) (rest : AllDone middle deeds later) :
      AllDone disk (deed :: deeds) later

/-- Whether the directories that each of some deeds needs are there or made by the deeds before
it. -/
def AllSupported (there : Location → Prop) : List Deed → Prop
  | [] => True
  | deed :: rest =>
    deed.Supported there ∧ AllSupported (fun other => there other ∨ other ∈ deed.made) rest

section

variable {there known : Location → Prop} {first second : List Deed}

theorem AllSupported.mono {deeds : List Deed} (supported : AllSupported there deeds)
    (each : ∀ other, there other → known other) : AllSupported known deeds := by
  induction deeds generalizing there known with
  | nil => trivial
  | cons deed rest ih =>
    exact ⟨supported.1.mono each, ih supported.2 fun other => Or.imp_left (each other)⟩

theorem AllSupported.append (early : AllSupported there first)
    (late : AllSupported there second) : AllSupported there (first ++ second) := by
  induction first generalizing there with
  | nil => exact late
  | cons deed rest ih => exact ⟨early.1, ih early.2 (late.mono fun _ => .inl)⟩

end

namespace AllDone

variable {disk middle later target : Disk} {deeds first second : List Deed}

theorem append_iff :
    AllDone disk (first ++ second) later ↔
      ∃ middle, AllDone disk first middle ∧ AllDone middle second later := by
  induction first generalizing disk with
  | nil =>
    constructor
    · exact fun done => ⟨disk, .nil, done⟩
    · rintro ⟨_, ⟨⟩, done⟩
      exact done
  | cons deed rest ih =>
    constructor
    · rintro (_ | ⟨head, tail⟩)
      obtain ⟨middle, early, late⟩ := ih.mp tail
      exact ⟨middle, .cons head early, late⟩
    · rintro ⟨middle, _ | ⟨head, early⟩, late⟩
      exact .cons head (ih.mpr ⟨middle, early, late⟩)

theorem fits (done : AllDone disk deeds later) : ∀ deed ∈ deeds, Fits deed.path := by
  induction done with
  | nil => exact fun _ member => absurd member List.not_mem_nil
  | cons head _ ih => exact List.forall_mem_cons.mpr ⟨head.fits, ih⟩

theorem adds (done : AllDone disk deeds later) :
    disk.Adds (deeds.flatMap Deed.made) (deeds.flatMap Deed.created) later := by
  induction done with
  | nil => exact .refl _
  | cons head _ ih =>
    rw [List.flatMap_cons, List.flatMap_cons]
    exact head.adds.trans ih

/-- Supported deeds whose files are free and distinct can be done, towards a disk that has all that
they add. -/
theorem exists_of_supported (fits : ∀ deed ∈ deeds, Fits deed.path)
    (supported : AllSupported disk.HasDirectory deeds) (grows : disk.Grows target)
    (wanted : ∀ other ∈ deeds.flatMap Deed.made, target.HasDirectory other)
    (files : ∀ file ∈ deeds.flatMap Deed.created, target.node? file.1 = some (.file file.2))
    (free : ∀ file ∈ deeds.flatMap Deed.created, disk.node? file.1 = none)
    (distinct : ((deeds.flatMap Deed.created).map Prod.fst).Nodup) :
    ∃ later, AllDone disk deeds later := by
  induction deeds generalizing disk with
  | nil => exact ⟨disk, .nil⟩
  | cons deed rest ih =>
    rw [List.forall_mem_cons] at fits
    rw [List.flatMap_cons, List.forall_mem_append] at wanted files free
    rw [List.flatMap_cons, List.map_append, List.nodup_append] at distinct
    obtain ⟨middle, head⟩ := Deed.exists_done fits.1 supported.1 grows wanted.1 free.1
    have grows_middle := head.adds.grows_towards grows wanted.1 files.1
    have supported_middle : AllSupported middle.HasDirectory rest :=
      supported.2.mono fun other => (head.adds.directories other).mpr
    have free_middle : ∀ file ∈ rest.flatMap Deed.created, middle.node? file.1 = none := by
      intro file member
      cases found : middle.node? file.1 with
      | none => rfl
      | some node =>
        -- What is there can only be the file itself, so the first deed would have written it.
        have there := grows_middle _ _ found
        rw [files.2 file member] at there
        rw [← Option.some.inj there] at found
        rcases (head.adds.files _ _).mp found with before | written
        · rw [free.2 file member] at before
          contradiction
        · exact absurd rfl (distinct.2.2 _ (List.mem_map_of_mem written) _
            (List.mem_map_of_mem member))
    obtain ⟨later, done⟩ :=
      ih fits.2 supported_middle grows_middle wanted.2 files.2 free_middle distinct.2.1
    exact ⟨later, .cons head done⟩

/-- Deeds that can be done in one order can be done in any other one in which each finds the
directories that it needs, and leave the same. -/
theorem rearrange {others : List Deed} (done : AllDone disk deeds later)
    (same : deeds.Perm others) (supported : AllSupported disk.HasDirectory others) :
    ∃ last, AllDone disk others last ∧ ∀ location, last.node? location = later.node? location := by
  have adds := done.adds
  have same_made := same.flatMap_right Deed.made
  have same_created := same.flatMap_right Deed.created
  obtain ⟨last, rearranged⟩ : ∃ last, AllDone disk others last := by
    refine exists_of_supported ?_ supported adds.grows ?_ ?_ ?_ ?_
    · exact fun deed member => done.fits deed (same.mem_iff.mpr member)
    · exact fun other member =>
        (adds.directories other).mpr (.inr (same_made.mem_iff.mpr member))
    · exact fun file member =>
        (adds.files _ _).mpr (.inr (same_created.mem_iff.mpr member))
    · exact fun file member => adds.free file (same_created.mem_iff.mpr member)
    · exact (same_created.map Prod.fst).nodup_iff.mp adds.distinct
  refine ⟨last, rearranged, fun location => ?_⟩
  exact (adds.node?_eq rearranged.adds (fun _ => same_made.mem_iff)
    (fun _ => same_created.mem_iff) location).symm

end AllDone

end ResourceClasses.Files
