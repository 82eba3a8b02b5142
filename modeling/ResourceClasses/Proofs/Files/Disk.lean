import ResourceClasses.Files.Disk
import ResourceClasses.Proofs.Outcome

/-!
Growing disks: making directories and new files loses nothing that is on a disk, so a new file is
read back from all disks that follow.
-/

set_option autoImplicit false

namespace ResourceClasses.Files

section

variable {ε α β σ : Type}

/-- What a program that can fail gives when it runs on a disk, and the disk that it leaves. -/
def runOn (run : ExceptT ε (StateM σ) α) (disk : σ) : Except ε α × σ :=
  run.run.run disk

theorem runOn_bind (run : ExceptT ε (StateM σ) α) (next : α → ExceptT ε (StateM σ) β) (disk : σ) :
    runOn (run >>= next) disk =
      match runOn run disk with
      | (.ok result, middle) => runOn (next result) middle
      | (.error e, middle) => (.error e, middle) := by
  simp only [runOn, ExceptT.run_bind, StateT.run_bind]
  change (match run.run.run disk with | (outcome, middle) => _) = _
  cases run.run.run disk with
  | mk outcome middle => cases outcome <;> rfl

theorem runOn_bind_ok {run : ExceptT ε (StateM σ) α} {result : α} {disk middle : σ}
    (done : runOn run disk = (.ok result, middle)) (next : α → ExceptT ε (StateM σ) β) :
    runOn (run >>= next) disk = runOn (next result) middle := by
  rw [runOn_bind, done]

/-- Two programs one after another succeed when the first one does and the second one does from
where the first one left off. -/
theorem runOn_bind_eq_ok_iff {run : ExceptT ε (StateM σ) α} {next : α → ExceptT ε (StateM σ) β}
    {disk later : σ} {result : β} :
    runOn (run >>= next) disk = (.ok result, later) ↔
      ∃ value middle, runOn run disk = (.ok value, middle) ∧
        runOn (next value) middle = (.ok result, later) := by
  rw [runOn_bind]
  rcases runOn run disk with ⟨_ | value, middle⟩
  · simp
  · simp

end

namespace Disk

variable {disk later last : Disk} {location next : Location} {path : String}
  {content : List UInt8}

/-- Whether a disk has kept everything that was on another one. -/
def Grows (disk later : Disk) : Prop :=
  ∀ location node, disk.node? location = some node → later.node? location = some node

theorem Grows.refl (disk : Disk) : disk.Grows disk :=
  fun _ _ found => found

theorem Grows.trans (first : disk.Grows later) (second : later.Grows last) : disk.Grows last :=
  fun location node found => second location node (first location node found)

/-- What is free on a disk was free before it grew. -/
theorem Grows.free (grows : disk.Grows later) (free : later.node? location = none) :
    disk.node? location = none := by
  cases before : disk.node? location with
  | none => rfl
  | some node =>
    rw [grows location node before] at free
    contradiction

theorem below_root (free : disk.node? location = none) : location.isEmpty = false := by
  cases location with
  | nil => contradiction
  | cons => rfl

theorem grows_put (free : disk.node? location = none) (node : Node) :
    disk.Grows (disk.put location node) := by
  intro other there found
  rw [node?_put disk location other node (below_root free)]
  split
  · rename_i same
    rw [same, free] at found
    contradiction
  · exact found

theorem grows_putFile (free : disk.node? location = none) (content : List UInt8) :
    disk.Grows (disk.putFile location content) := by
  intro other there found
  rw [node?_putFile disk location other content (below_root free)]
  split
  · rename_i same
    rw [same, free] at found
    contradiction
  · exact found

private theorem Grows.enter (grows : disk.Grows later) {step : String}
    (entered : disk.enter location step = .ok next) : later.enter location step = .ok next := by
  unfold Disk.enter at entered ⊢
  cases found : disk.node? location with
  | none => simp [found] at entered
  | some node =>
    rw [grows location node found]
    rw [found] at entered
    exact entered

private theorem Grows.foldlM_enter (grows : disk.Grows later) {steps : List String}
    (entered : steps.foldlM disk.enter location = .ok next) :
    steps.foldlM later.enter location = .ok next := by
  induction steps generalizing location with
  | nil => exact entered
  | cons step rest ih =>
    rw [List.foldlM_cons] at entered ⊢
    obtain ⟨middle, first, others⟩ := bind_eq_ok_iff.mp entered
    exact bind_eq_ok_iff.mpr ⟨middle, grows.enter first, ih others⟩

/-- A path keeps leading to the same place. -/
theorem Grows.resolve (grows : disk.Grows later) (resolved : disk.resolve path = .ok location) :
    later.resolve path = .ok location := by
  unfold Disk.resolve at resolved ⊢
  split at resolved
  · contradiction
  · split at resolved
    · contradiction
    · rename_i some_path short
      rw [if_neg some_path, if_neg short]
      exact grows.foldlM_enter resolved

/-- A file keeps its content. -/
theorem Grows.read (grows : disk.Grows later) (found : disk.read path = .ok content) :
    later.read path = .ok content := by
  obtain ⟨location, resolved, there⟩ := bind_eq_ok_iff.mp found
  refine bind_eq_ok_iff.mpr ⟨location, grows.resolve resolved, ?_⟩
  cases known : disk.node? location with
  | none => simp [known] at there
  | some node =>
    rw [known] at there
    rw [grows location node known]
    exact there

theorem freePlace_eq_ok_iff :
    disk.freePlace path = .ok location ↔
      disk.resolve path = .ok location ∧ disk.node? location = none := by
  unfold freePlace
  rw [bind_eq_ok_iff]
  constructor
  · rintro ⟨place, resolved, made⟩
    cases free : disk.node? place with
    | some node => simp [free] at made
    | none =>
      simp only [free, Except.ok.injEq] at made
      exact ⟨made ▸ resolved, made ▸ free⟩
  · rintro ⟨resolved, free⟩
    exact ⟨location, resolved, by simp only [free]⟩

theorem addFile_eq_ok_iff_freePlace :
    disk.addFile path content = .ok later ↔
      ∃ location, disk.freePlace path = .ok location ∧ later = disk.putFile location content := by
  unfold addFile
  rw [bind_eq_ok_iff]
  simp only [Except.ok.injEq, eq_comm]

theorem addFile_ok (added : disk.addFile path content = .ok later) :
    ∃ location, disk.resolve path = .ok location ∧ disk.node? location = none ∧
      later = disk.putFile location content := by
  obtain ⟨location, found, made⟩ := addFile_eq_ok_iff_freePlace.mp added
  obtain ⟨resolved, free⟩ := freePlace_eq_ok_iff.mp found
  exact ⟨location, resolved, free, made⟩

/-- A name leads to its place below the root. -/
theorem resolve_below_root {name : String} (steps : Path.steps name = [name])
    (step : name ≠ Path.stay ∧ name ≠ Path.back) (short : name.utf8ByteSize ≤ maxNameSize) :
    disk.resolve name = .ok [name] := by
  have some_name : name.isEmpty = false := by
    rw [String.isEmpty_eq_false_iff]
    rintro rfl
    contradiction
  have entered : disk.enter [] name = .ok [name] := by
    have root : disk.node? [] = some .directory := rfl
    simp only [Disk.enter, root, if_neg step.1, if_neg step.2, if_neg (Nat.not_lt.mpr short),
      List.nil_append]
  have shorter : ¬name.utf8ByteSize > maxPathSize :=
    Nat.not_lt.mpr (Nat.le_trans short (by decide))
  rw [Disk.resolve, some_name, if_neg Bool.false_ne_true, if_neg shorter, steps,
    List.foldlM_cons, entered]
  rfl

/-- What is below the root is read by its name. -/
theorem read_below_root {name : String} (steps : Path.steps name = [name])
    (step : name ≠ Path.stay ∧ name ≠ Path.back) (short : name.utf8ByteSize ≤ maxNameSize) :
    disk.read name =
      match disk.node? [name] with
      | none => .error .notFound
      | some .directory => .error .isADirectory
      | some (.file content) =>
        if name.endsWith '/' then .error .notADirectory else .ok content := by
  rw [Disk.read, resolve_below_root steps step short]
  rfl

/-- A file of a name that is free can be made below the root. -/
theorem addFile_below_root {name : String} (content : List UInt8)
    (steps : Path.steps name = [name]) (step : name ≠ Path.stay ∧ name ≠ Path.back)
    (short : name.utf8ByteSize ≤ maxNameSize) (free : disk.node? [name] = none) :
    disk.addFile name content = .ok (disk.putFile [name] content) := by
  have found := freePlace_eq_ok_iff.mpr ⟨resolve_below_root steps step short, free⟩
  exact addFile_eq_ok_iff_freePlace.mpr ⟨[name], found, rfl⟩

theorem grows_addFile (added : disk.addFile path content = .ok later) : disk.Grows later := by
  obtain ⟨location, _, free, rfl⟩ := addFile_ok added
  exact grows_putFile free content

/-- A new file is read back. -/
theorem read_addFile (added : disk.addFile path content = .ok later)
    (named : path.endsWith '/' = false) : later.read path = .ok content := by
  have grows := grows_addFile added
  obtain ⟨location, resolved, free, rfl⟩ := addFile_ok added
  have there := node?_putFile disk location location content (below_root free)
  rw [if_pos rfl] at there
  refine bind_eq_ok_iff.mpr ⟨location, grows.resolve resolved, ?_⟩
  simp only [there, named]
  rfl

theorem grows_addDirectories (disk : Disk) (location : Location) (steps : List String) :
    disk.Grows (disk.addDirectories location steps).2 := by
  induction steps generalizing disk location with
  | nil => exact .refl disk
  | cons step rest ih =>
    rw [addDirectories]
    split
    · exact ih disk location
    · split
      · exact ih disk location.dropLast
      · split
        · exact .refl disk
        · dsimp only
          split
          · exact ih disk _
          · exact .refl disk
          · rename_i free
            split
            · exact .refl disk
            · exact (grows_put free .directory).trans (ih _ _)

end Disk

end ResourceClasses.Files
