import ResourceClasses.Proofs.Files.Place
import ResourceClasses.Proofs.Path

/-!
Making directories along a path: which disks allow it, and what it adds to them. Whether it succeeds
is told by the places that the path passes: no file may be at one of them, and where the path stays
at its end a directory has to be there already.
-/

set_option autoImplicit false

namespace ResourceClasses.Files

namespace Disk

variable {disk middle later target : Disk} {location next : Location} {path : String}
  {steps : List String} {step : String}

/-- Whether there is a directory at a place. -/
def HasDirectory (disk : Disk) (location : Location) : Prop :=
  disk.node? location = some .directory

/-- Whether there are directories at a place and at all places above it. -/
def Stands (disk : Disk) (location : Location) : Prop :=
  ∀ parent, parent <+: location → disk.HasDirectory parent

theorem Stands.root (disk : Disk) : disk.Stands [] := by
  intro parent above
  rw [List.prefix_nil.mp above]
  rfl

theorem Stands.here (stands : disk.Stands location) : disk.HasDirectory location :=
  stands location (List.prefix_refl location)

theorem Stands.grows (stands : disk.Stands location) (grows : disk.Grows later) :
    later.Stands location :=
  fun parent above => grows parent _ (stands parent above)

theorem Stands.move (stands : disk.Stands location)
    (there : disk.HasDirectory (move location step)) : disk.Stands (Files.move location step) := by
  unfold Files.move at there ⊢
  split
  · exact stands
  · split
    · exact fun parent above => stands parent (above.trans location.dropLast_prefix)
    · rename_i stays back
      rw [if_neg stays, if_neg back] at there
      intro parent above
      rcases List.prefix_concat_iff.mp above with rfl | earlier
      · exact there
      · exact stands parent earlier

/-- Making directories goes from place to place: a directory is kept, and one that is missing is
made unless the remaining steps stay in it. -/
theorem addDirectories_cons (stands : disk.Stands location) (rest : List String) :
    disk.addDirectories location (step :: rest) =
      if step.utf8ByteSize > maxNameSize then (.error .nameTooLong, disk)
      else
        match disk.node? (Files.move location step) with
        | some .directory => disk.addDirectories (Files.move location step) rest
        | some (.file _) => (.error .alreadyExists, disk)
        | none =>
          if staysInPlace rest then (.error .notFound, disk)
          else (disk.put (Files.move location step) .directory).addDirectories
            (Files.move location step) rest := by
  have short_stay : ¬Path.stay.utf8ByteSize > maxNameSize := by decide
  have short_back : ¬Path.back.utf8ByteSize > maxNameSize := by decide
  have above : disk.node? location.dropLast = some .directory :=
    stands _ location.dropLast_prefix
  have here : disk.node? location = some .directory := stands.here
  rw [addDirectories, Files.move]
  split
  · rename_i stays
    rw [stays, if_neg short_stay, here]
  · split
    · rename_i stays back
      rw [back, if_neg short_back, above]
    · rfl

end Disk

/-- The places that steps pass, with the one that they lead to. -/
def passed (location : Location) (steps : List String) : List Location :=
  origins location steps ++ [steps.foldl move location]

theorem passed_cons (location : Location) (step : String) (rest : List String) :
    passed location (step :: rest) = location :: passed (move location step) rest := rfl

theorem origins_append (location : Location) (front tail : List String) :
    origins location (front ++ tail) =
      origins location front ++ origins (front.foldl move location) tail := by
  induction front generalizing location with
  | nil => rfl
  | cons step rest ih =>
    rw [List.cons_append, origins, ih]
    rfl

/-- The last step is taken from where the steps before it lead. -/
theorem origins_concat (location : Location) (front : List String) (last : String) :
    origins location (front ++ [last]) = passed location front :=
  origins_append location front [last]

/-- Steps that stay in place pass no other place. -/
theorem mem_of_mem_passed_replicate {location other : Location} {steps : List String} {count : Nat}
    (member : other ∈ passed location (steps ++ List.replicate count Path.stay)) :
    other ∈ passed location steps := by
  induction count with
  | zero =>
    rw [List.replicate_zero, List.append_nil] at member
    exact member
  | succ count ih =>
    rw [List.replicate_succ', ← List.append_assoc, passed, origins_concat, List.foldl_append]
      at member
    rcases List.mem_append.mp member with earlier | last
    · exact ih earlier
    · refine ih ?_
      rw [List.mem_singleton.mp last]
      exact List.mem_append_right _ List.mem_cons_self

theorem mem_passed (location : Location) (steps : List String) :
    location ∈ passed location steps := by
  cases steps <;> exact List.mem_cons_self

/-- Whether steps whose end stays in place stay in a directory that was there or was passed on the
way to it. -/
def SettlesFrom (there : Location → Prop) (location : Location) (steps : List String) : Prop :=
  ∀ front tail, steps = front ++ tail → Disk.staysInPlace tail = true →
    there (front.foldl move location) ∨ front.foldl move location ∈ origins location front

theorem SettlesFrom.mono {there known : Location → Prop} {location : Location}
    {steps : List String} (settles : SettlesFrom there location steps)
    (each : ∀ other, there other → known other) : SettlesFrom known location steps :=
  fun front tail split stays => (settles front tail split stays).imp_left (each _)

theorem settlesFrom_cons {there : Location → Prop} {location : Location} {step : String}
    {rest : List String} (here : there location) :
    SettlesFrom there location (step :: rest) ↔ SettlesFrom there (move location step) rest := by
  constructor
  · intro settles front tail split stays
    rcases settles (step :: front) tail (congrArg _ split) stays with known | passed
    · exact .inl known
    · rcases List.mem_cons.mp passed with same | later
      · rw [List.foldl_cons] at same
        exact .inl (same.symm ▸ here)
      · exact .inr later
  · intro settles front tail split stays
    cases front with
    | nil => exact .inl here
    | cons first front =>
      obtain ⟨rfl, later⟩ := List.cons.inj split
      exact (settles front tail later stays).imp_right (List.mem_cons_of_mem _)

namespace Disk

variable {disk middle later target : Disk} {location next : Location} {path : String}
  {steps : List String} {step : String}

/-- Whether everything on a disk is kept, the files that come to be are the given ones, and the
directories that are there are those that were there and the given ones. -/
structure Adds (disk : Disk) (directories : List Location)
    (created : List (Location × List UInt8)) (later : Disk) : Prop extends
    disk.Creates created later where
  directories : ∀ location,
    later.HasDirectory location ↔ disk.HasDirectory location ∨ location ∈ directories

namespace Adds

theorem refl (disk : Disk) : disk.Adds [] [] disk :=
  ⟨.refl disk, fun _ => ⟨.inl, fun known => known.resolve_right List.not_mem_nil⟩⟩

theorem trans {first second : List Location} {early late : List (Location × List UInt8)}
    (begun : disk.Adds first early middle) (done : middle.Adds second late later) :
    disk.Adds (first ++ second) (early ++ late) later where
  toCreates := begun.toCreates.trans done.toCreates
  directories := by
    intro location
    rw [done.directories, begun.directories, List.mem_append, or_assoc]

/-- What is added is kept by a disk that has it and has kept everything that was there before. -/
theorem grows_towards {directories : List Location} {created : List (Location × List UInt8)}
    (adds : disk.Adds directories created later) (grows : disk.Grows target)
    (wanted : ∀ other ∈ directories, target.HasDirectory other)
    (files : ∀ file ∈ created, target.node? file.1 = some (.file file.2)) : later.Grows target := by
  intro location node found
  cases node with
  | directory =>
    rcases (adds.directories location).mp found with before | added
    · exact grows location _ before
    · exact wanted location added
  | file content =>
    rcases (adds.files location content).mp found with before | added
    · exact grows location _ before
    · exact files _ added

/-- What a disk has after the same directories and files are added in any order is the same. -/
theorem node?_eq {other : Disk} {first second : List Location}
    {early late : List (Location × List UInt8)} (one : disk.Adds first early later)
    (another : disk.Adds second late other)
    (same_directories : ∀ location, location ∈ first ↔ location ∈ second)
    (same_files : ∀ file, file ∈ early ↔ file ∈ late) (location : Location) :
    later.node? location = other.node? location := by
  apply Option.ext
  intro node
  cases node with
  | directory =>
    have here := one.directories location
    have there := another.directories location
    rw [← same_directories] at there
    exact here.trans there.symm
  | file content => rw [one.files, another.files, same_files]

end Adds

/-- A directory that is made where nothing was is added. -/
private theorem adds_put (free : disk.node? location = none) :
    disk.Adds [location] [] (disk.put location .directory) := by
  have put := fun other => node?_put disk location other .directory (below_root free)
  refine ⟨.nothing (grows_put free .directory) fun other node found => ?_, fun other => ?_⟩
  · rw [put] at found
    split at found
    · exact .inr (Option.some.inj found).symm
    · exact .inl found
  · rw [HasDirectory, put, List.mem_singleton]
    split
    · rename_i same
      simp [same]
    · rename_i different
      simp [different, HasDirectory]

private theorem hasDirectory_put (free : disk.node? location = none) :
    (disk.put location .directory).HasDirectory location :=
  ((adds_put free).directories location).mpr (.inr List.mem_cons_self)

private theorem Adds.congr {directories others : List Location}
    {created : List (Location × List UInt8)} (adds : disk.Adds directories created later)
    (same : ∀ other, ¬disk.HasDirectory other → (other ∈ directories ↔ other ∈ others)) :
    disk.Adds others created later where
  toCreates := adds.toCreates
  directories := by
    intro other
    rw [adds.directories]
    by_cases known : disk.HasDirectory other
    · simp [known]
    · simp [known, same other known]

/-- A directory that is there can be counted among those that are added. -/
private theorem Adds.behind {directories : List Location} {created : List (Location × List UInt8)}
    (adds : disk.Adds directories created later) (here : disk.HasDirectory location) :
    disk.Adds (location :: directories) created later := by
  refine adds.congr fun other absent => ?_
  rw [List.mem_cons, or_iff_right]
  rintro rfl
  exact absent here

/-- Steps that go on from a directory which is made for them settle without it, since they pass
it. -/
private theorem settlesFrom_of_put {rest : List String} (free : disk.node? next = none)
    (moves : ¬staysInPlace rest = true)
    (settles : SettlesFrom (disk.put next .directory).HasDirectory next rest) :
    SettlesFrom disk.HasDirectory next rest := by
  intro front tail split stays
  cases front with
  | nil => exact absurd (split ▸ stays) moves
  | cons first front =>
    rcases settles (first :: front) tail split stays with known | passed
    · rcases ((adds_put free).directories _).mp known with before | same
      · exact .inl before
      · rw [List.mem_singleton.mp same]
        exact .inr List.mem_cons_self
    · exact .inr passed

/-- What making directories along some steps says about them and about the disk, when the place that
they start from stands. -/
private theorem of_addDirectories (stands : disk.Stands location)
    (made : disk.addDirectories location steps = (.ok (), later)) :
    (∀ step ∈ steps, step.utf8ByteSize ≤ maxNameSize) ∧
      SettlesFrom disk.HasDirectory location steps ∧
        disk.Adds (passed location steps) [] later := by
  induction steps generalizing disk location with
  | nil =>
    obtain ⟨-, rfl⟩ := Prod.mk.inj made
    refine ⟨fun _ member => absurd member List.not_mem_nil, ?_, (Adds.refl _).behind stands.here⟩
    intro front tail split _
    rw [(List.append_eq_nil_iff.mp split.symm).1]
    exact .inl stands.here
  | cons step rest ih =>
    rw [addDirectories_cons stands] at made
    split at made
    · cases made
    rename_i short
    rw [List.forall_mem_cons, settlesFrom_cons stands.here, passed_cons]
    split at made
    · rename_i there
      obtain ⟨shorts, settles, adds⟩ := ih (stands.move there) made
      exact ⟨⟨Nat.le_of_not_lt short, shorts⟩, settles, adds.behind stands.here⟩
    · cases made
    · rename_i free
      split at made
      · cases made
      rename_i moves
      have grown := (adds_put free).grows
      obtain ⟨shorts, settles, adds⟩ := ih ((stands.grows grown).move (hasDirectory_put free)) made
      have added : disk.Adds (passed (Files.move location step) rest) [] later := by
        refine ((adds_put free).trans adds).congr fun other _ => ?_
        rw [List.singleton_append, List.mem_cons, or_iff_right_of_imp]
        rintro rfl
        exact mem_passed _ rest
      exact ⟨⟨Nat.le_of_not_lt short, shorts⟩, settlesFrom_of_put free moves settles,
        added.behind stands.here⟩

/-- Where all directories along some steps are there, none is made. -/
private theorem addDirectories_of_passed (stands : disk.Stands location)
    (short : ∀ step ∈ steps, step.utf8ByteSize ≤ maxNameSize)
    (there : ∀ other ∈ passed location steps, disk.HasDirectory other) :
    disk.addDirectories location steps = (.ok (), disk) := by
  induction steps generalizing location with
  | nil => rfl
  | cons step rest ih =>
    rw [List.forall_mem_cons] at short
    rw [passed_cons, List.forall_mem_cons] at there
    have next : disk.HasDirectory (Files.move location step) := there.2 _ (mem_passed _ rest)
    have found : disk.node? (Files.move location step) = some .directory := next
    rw [addDirectories_cons stands, if_neg (Nat.not_lt.mpr short.1), found]
    exact ih (stands.move next) short.2 there.2

/-- Directories can be made along short steps that settle, towards a disk that has all of them. -/
private theorem exists_addDirectories (stands : disk.Stands location)
    (short : ∀ step ∈ steps, step.utf8ByteSize ≤ maxNameSize)
    (settles : SettlesFrom disk.HasDirectory location steps) (grows : disk.Grows target)
    (wanted : ∀ other ∈ passed location steps, target.HasDirectory other) :
    ∃ later, disk.addDirectories location steps = (.ok (), later) := by
  induction steps generalizing disk location with
  | nil => exact ⟨disk, rfl⟩
  | cons step rest ih =>
    rw [List.forall_mem_cons] at short
    rw [passed_cons, List.forall_mem_cons] at wanted
    have next_settles := (settlesFrom_cons stands.here).mp settles
    rw [addDirectories_cons stands, if_neg (Nat.not_lt.mpr short.1)]
    have next_wanted := wanted.2 _ (mem_passed _ rest)
    cases found : disk.node? (Files.move location step) with
    | some node =>
      cases node with
      | directory => exact ih (stands.move found) short.2 next_settles grows wanted.2
      | file content =>
        have kept := grows _ _ found
        rw [next_wanted] at kept
        cases kept
    | none =>
      have moves : ¬staysInPlace rest = true := by
        intro stays
        rcases next_settles [] rest rfl stays with known | never
        · rw [HasDirectory, List.foldl_nil, found] at known
          contradiction
        · contradiction
      have grown := (adds_put found).grows
      dsimp only
      rw [if_neg moves]
      refine ih ((stands.grows grown).move (hasDirectory_put found)) short.2
        (next_settles.mono fun other => grown other _) ?_ wanted.2
      refine (adds_put found).grows_towards grows ?_ ?_
      · intro other member
        rw [List.mem_singleton.mp member]
        exact next_wanted
      · exact fun file never => absurd never List.not_mem_nil

end Disk

/-- Whether a path and each of its steps are short enough. -/
structure Fits (path : String) : Prop where
  whole : path.utf8ByteSize ≤ Disk.maxPathSize
  steps : ∀ step ∈ Path.steps path, step.utf8ByteSize ≤ Disk.maxNameSize

/-- Whether a path whose end stays in place stays in a directory that was there or was passed on the
way to it. -/
def Settles (there : Location → Prop) (path : String) : Prop :=
  SettlesFrom there [] (Path.steps path)

namespace Disk

variable {disk later target : Disk} {path : String} {content : List UInt8}

/-- Short steps that pass no file lead to their place, or to a place where nothing is. -/
private theorem notFound_of_foldlM_enter {location : Location} {steps : List String}
    {e : FileError} (short : ∀ step ∈ steps, step.utf8ByteSize ≤ maxNameSize)
    (no_file : ∀ other ∈ passed location steps, ∀ content, disk.node? other ≠ some (.file content))
    (failed : steps.foldlM disk.enter location = .error e) : e = .notFound := by
  induction steps generalizing location with
  | nil => contradiction
  | cons step rest ih =>
    rw [List.forall_mem_cons] at short
    rw [passed_cons, List.forall_mem_cons] at no_file
    rw [List.foldlM_cons] at failed
    cases found : disk.node? location with
    | none =>
      have missing : disk.enter location step = .error .notFound := by rw [enter, found]
      rw [missing] at failed
      exact (Except.error.inj failed).symm
    | some node =>
      cases node with
      | file content => exact absurd found (no_file.1 content)
      | directory =>
        rw [enter_eq_ok_iff.mpr ⟨found, short.1, rfl⟩] at failed
        exact ih short.2 no_file.2 failed

/-- What is known of a path whose directories are made, and what they add to the disk. -/
theorem of_addPath (made : disk.addPath path = (.ok (), later)) :
    Fits path ∧ Settles disk.HasDirectory path ∧
      disk.Adds (passed [] (Path.steps path)) [] later := by
  unfold addPath at made
  split at made
  · cases made
  · cases made
  · rename_i not_long
    obtain ⟨short, settles, adds⟩ := of_addDirectories (.root disk) made
    refine ⟨⟨Nat.le_of_not_lt fun long => not_long ?_, short⟩, settles, adds⟩
    have some_path : ¬path.isEmpty = true := by
      intro empty
      rw [String.isEmpty_iff.mp empty] at long
      contradiction
    rw [resolve, if_neg some_path, if_pos long]

/-- The directories of a short path that settles can be made, towards a disk that has all of
them. -/
theorem exists_addPath (fits : Fits path) (settles : Settles disk.HasDirectory path)
    (grows : disk.Grows target)
    (wanted : ∀ other ∈ passed [] (Path.steps path), target.HasDirectory other) :
    ∃ later, disk.addPath path = (.ok (), later) := by
  have no_file : ∀ other ∈ passed [] (Path.steps path), ∀ content,
      disk.node? other ≠ some (.file content) := by
    intro other member content found
    have kept := grows other _ found
    rw [wanted other member] at kept
    cases kept
  have possible : ∀ e, disk.resolve path = .error e → e = .notFound := by
    intro e failed
    unfold resolve at failed
    split at failed
    · exact (Except.error.inj failed).symm
    · rw [if_neg (Nat.not_lt.mpr fits.whole)] at failed
      exact notFound_of_foldlM_enter fits.steps no_file failed
  unfold addPath
  split
  · rename_i failed
    cases possible _ failed
  · rename_i failed
    cases possible _ failed
  · exact exists_addDirectories (.root disk) fits.steps settles grows wanted

theorem addFile_eq_ok_iff :
    disk.addFile path content = .ok later ↔
      Fits path ∧ (∀ origin ∈ origins [] (Path.steps path), disk.HasDirectory origin) ∧
        disk.node? (place path) = none ∧ later = disk.putFile (place path) content := by
  constructor
  · intro added
    obtain ⟨location, resolved, -⟩ := addFile_ok added
    obtain ⟨-, whole, entered⟩ := resolve_eq_ok_iff.mp resolved
    obtain ⟨there, short, -⟩ := foldlM_enter_eq_ok_iff.mp entered
    exact ⟨⟨whole, short⟩, there, eq_putFile_of_addFile added⟩
  · rintro ⟨fits, there, free, rfl⟩
    have some_path : path.isEmpty = false := by
      rw [String.isEmpty_eq_false_iff]
      rintro rfl
      contradiction
    have resolved : disk.resolve path = .ok (place path) :=
      resolve_eq_ok_iff.mpr
        ⟨some_path, fits.whole, foldlM_enter_eq_ok_iff.mpr ⟨there, fits.steps, rfl⟩⟩
    exact addFile_eq_ok_iff_freePlace.mpr
      ⟨place path, freePlace_eq_ok_iff.mpr ⟨resolved, free⟩, rfl⟩

/-- The directories above a place that a path leads to are all there, so that none of them is made,
however the path to them is written. -/
theorem addPath_of_resolve_join {location : Location} {name other : String}
    (resolved : disk.resolve (Path.join path name) = .ok location)
    (single : Path.steps name = [name]) (below : name.startsWith '/' = false)
    (same : Path.steps other = Path.steps path) : (disk.addPath other).2 = disk := by
  obtain ⟨-, -, entered⟩ := resolve_eq_ok_iff.mp resolved
  rw [Path.steps_join below, single, foldlM_enter_eq_ok_iff, origins_concat] at entered
  obtain ⟨there, short, -⟩ := entered
  have kept : disk.addDirectories [] (Path.steps other) = (.ok (), disk) := by
    rw [same]
    exact addDirectories_of_passed (.root disk)
      (fun step member => short step (List.mem_append_left _ member)) there
  unfold addPath
  split
  · rfl
  · rfl
  · rw [kept]

/-- A directory that is made is there. -/
theorem directory_of_addPath (made : disk.addPath path = (.ok (), later)) :
    later.node? (place path) = some .directory := by
  obtain ⟨-, -, adds⟩ := of_addPath made
  exact (adds.directories _).mpr (.inr (List.mem_append_right _ List.mem_cons_self))

end Disk

end ResourceClasses.Files
