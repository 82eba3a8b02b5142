import Mathlib.Data.List.Nodup
import ResourceClasses.Proofs.Files.Disk

/-!
Places: where the steps of a path lead does not depend on the disk, only whether they can be taken
does. So what an operation adds to a disk is told by places: a new file comes to be at its place
and nowhere else, and making directories adds no file.
-/

set_option autoImplicit false

namespace ResourceClasses.Files

/-- Where a step leads from a place. -/
def move (location : Location) (step : String) : Location :=
  if step = Path.stay then location
  else if step = Path.back then location.dropLast
  else location ++ [step]

/-- Where a path leads. -/
def place (path : String) : Location :=
  (Path.steps path).foldl move []

/-- Steps that go on by name lead to the place of these names. -/
theorem foldl_move {steps : List String}
    (named : ∀ step ∈ steps, step ≠ Path.stay ∧ step ≠ Path.back) (location : Location) :
    steps.foldl move location = location ++ steps := by
  induction steps generalizing location with
  | nil => exact (List.append_nil _).symm
  | cons step rest ih =>
    rw [List.forall_mem_cons] at named
    have next : move location step = location ++ [step] := by
      rw [move, if_neg named.1.1, if_neg named.1.2]
    rw [List.foldl_cons, next, ih named.2, List.append_assoc]
    rfl

/-- The places that steps are taken from, one after another. -/
def origins (location : Location) : List String → List Location
  | [] => []
  | step :: rest => location :: origins (move location step) rest

namespace Disk

variable {disk middle later : Disk} {location next : Location} {path : String}
  {content : List UInt8}

theorem enter_eq_ok_iff {step : String} :
    disk.enter location step = .ok next ↔
      disk.node? location = some .directory ∧ step.utf8ByteSize ≤ maxNameSize ∧
        next = move location step := by
  have short_stay : Path.stay.utf8ByteSize ≤ maxNameSize := by decide
  have short_back : Path.back.utf8ByteSize ≤ maxNameSize := by decide
  unfold Disk.enter move
  cases disk.node? location with
  | none => simp
  | some node =>
    cases node with
    | file content => simp
    | directory =>
      by_cases stays : step = Path.stay
      · simp [stays, short_stay, eq_comm]
      · by_cases back : step = Path.back
        · have different : Path.back ≠ Path.stay := by decide
          simp [back, different, short_back, eq_comm]
        · by_cases long : step.utf8ByteSize > maxNameSize
          · simp [stays, back, long, Nat.not_le_of_lt long]
          · simp [stays, back, long, Nat.le_of_not_lt long, eq_comm]

/-- Steps can be taken when each starts from a directory and has a name that is not too long. -/
theorem foldlM_enter_eq_ok_iff {steps : List String} :
    steps.foldlM disk.enter location = .ok next ↔
      (∀ origin ∈ origins location steps, disk.node? origin = some .directory) ∧
        (∀ step ∈ steps, step.utf8ByteSize ≤ maxNameSize) ∧ next = steps.foldl move location := by
  induction steps generalizing location with
  | nil => simp [origins, pure, Except.pure, eq_comm]
  | cons step rest ih =>
    rw [List.foldlM_cons, bind_eq_ok_iff, origins, List.forall_mem_cons, List.forall_mem_cons,
      List.foldl_cons]
    constructor
    · rintro ⟨_, first, others⟩
      obtain ⟨there, short, rfl⟩ := enter_eq_ok_iff.mp first
      obtain ⟨later_there, later_short, same⟩ := ih.mp others
      exact ⟨⟨there, later_there⟩, ⟨short, later_short⟩, same⟩
    · rintro ⟨⟨there, later_there⟩, ⟨short, later_short⟩, same⟩
      exact ⟨_, enter_eq_ok_iff.mpr ⟨there, short, rfl⟩, ih.mpr ⟨later_there, later_short, same⟩⟩

theorem resolve_eq_ok_iff :
    disk.resolve path = .ok location ↔
      path.isEmpty = false ∧ path.utf8ByteSize ≤ maxPathSize ∧
        (Path.steps path).foldlM disk.enter [] = .ok location := by
  unfold Disk.resolve
  split
  · simp [*]
  · split
    · rename_i long
      simp [Nat.not_le_of_lt long]
    · rename_i some_path short
      simp [some_path, Nat.le_of_not_lt short]

/-- A path that can be followed leads to its place. -/
theorem eq_place_of_resolve (resolved : disk.resolve path = .ok location) : location = place path :=
  (foldlM_enter_eq_ok_iff.mp (resolve_eq_ok_iff.mp resolved).2.2).2.2

/-- A new file comes to be at the place of its path, where nothing was. -/
theorem eq_putFile_of_addFile (added : disk.addFile path content = .ok later) :
    disk.node? (place path) = none ∧ later = disk.putFile (place path) content := by
  obtain ⟨location, resolved, free, made⟩ := addFile_ok added
  rw [eq_place_of_resolve resolved] at free made
  exact ⟨free, made⟩

/-- The path of a new file leads to it. -/
theorem resolve_of_addFile (added : disk.addFile path content = .ok later) :
    later.resolve path = .ok (place path) ∧ later.node? (place path) = some (.file content) := by
  have grows := grows_addFile added
  obtain ⟨location, resolved, free, rfl⟩ := addFile_ok added
  have same := eq_place_of_resolve resolved
  refine ⟨same ▸ grows.resolve resolved, ?_⟩
  rw [← same, node?_putFile disk location location _ (below_root free), if_pos rfl]

/-- Whether there is a file on the later of two disks at a place where nothing was. -/
def Gains (disk later : Disk) (location : Location) : Prop :=
  disk.node? location = none ∧ ∃ content, later.node? location = some (.file content)

/-- Whether everything on a disk is kept and the files that come to be are the given ones, each at
a place of its own where nothing was. -/
structure Creates (disk : Disk) (created : List (Location × List UInt8)) (later : Disk) :
    Prop where
  grows : disk.Grows later
  free : ∀ file ∈ created, disk.node? file.1 = none
  distinct : (created.map Prod.fst).Nodup
  files : ∀ location content,
    later.node? location = some (.file content) ↔
      disk.node? location = some (.file content) ∨ (location, content) ∈ created

namespace Creates

/-- Something that keeps everything and adds only directories creates no file. -/
theorem nothing (grows : disk.Grows later)
    (added : ∀ location node, later.node? location = some node →
      disk.node? location = some node ∨ node = .directory) :
    disk.Creates [] later := by
  refine ⟨grows, fun _ member => by contradiction, List.nodup_nil, ?_⟩
  intro location content
  constructor
  · intro found
    rcases added location _ found with before | never
    · exact .inl before
    · contradiction
  · rintro (before | never)
    · exact grows location _ before
    · contradiction

theorem refl (disk : Disk) : disk.Creates [] disk :=
  nothing (.refl disk) fun _ _ found => .inl found

/-- A file that is there although none was created was there before. -/
theorem file_of_nothing (created : disk.Creates [] later)
    (found : later.node? location = some (.file content)) :
    disk.node? location = some (.file content) := by
  rcases (created.files location content).mp found with before | never
  · exact before
  · contradiction

theorem trans {first second : List (Location × List UInt8)} (begun : disk.Creates first middle)
    (done : middle.Creates second later) : disk.Creates (first ++ second) later := by
  refine ⟨begun.grows.trans done.grows, ?_, ?_, ?_⟩
  · intro file member
    rcases List.mem_append.mp member with early | late
    · exact begun.free file early
    · exact begun.grows.free (done.free file late)
  · rw [List.map_append, List.nodup_append]
    refine ⟨begun.distinct, done.distinct, ?_⟩
    rintro _ early _ late rfl
    obtain ⟨⟨location, content⟩, inside, rfl⟩ := List.mem_map.mp early
    obtain ⟨other, outside, same⟩ := List.mem_map.mp late
    have there := (begun.files location content).mpr (.inr inside)
    have free := done.free other outside
    rw [same, there] at free
    contradiction
  · intro location content
    rw [done.files, begun.files, List.mem_append, or_assoc]

end Creates

theorem creates_addFile (added : disk.addFile path content = .ok later) :
    disk.Creates [(place path, content)] later := by
  have grows := grows_addFile added
  obtain ⟨free, rfl⟩ := eq_putFile_of_addFile added
  refine ⟨grows, ?_, List.nodup_singleton _, ?_⟩
  · intro file member
    rw [List.mem_singleton.mp member]
    exact free
  · intro location other
    rw [node?_putFile disk _ location _ (below_root free), List.mem_singleton, Prod.mk.injEq]
    split
    · rename_i same
      rw [same, free]
      simp [eq_comm]
    · rename_i different
      simp [different]

private theorem added_put {node : Node} (below : location.isEmpty = false) {other : Location}
    (found : (disk.put location .directory).node? other = some node) :
    disk.node? other = some node ∨ node = .directory := by
  rw [node?_put disk location other _ below] at found
  split at found
  · exact .inr (Option.some.inj found).symm
  · exact .inl found

/-- Making directories adds nothing but directories. -/
private theorem added_addDirectories (disk : Disk) (location : Location) (steps : List String)
    (other : Location) (node : Node)
    (found : (disk.addDirectories location steps).2.node? other = some node) :
    disk.node? other = some node ∨ node = .directory := by
  induction steps generalizing disk location with
  | nil => exact .inl found
  | cons step rest ih =>
    rw [addDirectories] at found
    split at found
    · exact ih disk location found
    · split at found
      · exact ih disk location.dropLast found
      · split at found
        · exact .inl found
        · dsimp only at found
          split at found
          · exact ih disk _ found
          · exact .inl found
          · rename_i free
            split at found
            · exact .inl found
            · rcases ih _ _ found with put | made
              · exact added_put (below_root free) put
              · exact .inr made

/-- Making directories creates no file, whether or not all of them are made. -/
theorem creates_addDirectories (disk : Disk) (location : Location) (steps : List String) :
    disk.Creates [] (disk.addDirectories location steps).2 :=
  .nothing (grows_addDirectories disk location steps) (added_addDirectories disk location steps)

theorem creates_addPath (disk : Disk) (path : String) : disk.Creates [] (disk.addPath path).2 := by
  unfold addPath
  split
  · exact .refl disk
  · exact .refl disk
  · exact creates_addDirectories disk [] _

end Disk

end ResourceClasses.Files
