import ResourceClasses.Proofs.Files.Passage

/-!
Paths that lead on from a root without a step back: what is made along them lies below the root, or
is one of the directories on the way to it, whether or not all of it can be made.
-/

set_option autoImplicit false

namespace ResourceClasses.Files

/-- Whether a path leads on from another one, without a step back. -/
def LeadsOn (root path : String) : Prop :=
  ∃ tail, Path.steps path = Path.steps root ++ tail ∧ Path.back ∉ tail

theorem passed_append (location : Location) (front tail : List String) :
    passed location (front ++ tail) =
      origins location front ++ passed (front.foldl move location) tail := by
  rw [passed, origins_append, List.foldl_append, List.append_assoc]
  rfl

/-- The places that the first steps pass are passed by all of them. -/
theorem passed_subset_append (location : Location) (front tail : List String) :
    passed location front ⊆ passed location (front ++ tail) := by
  intro other member
  rw [passed_append]
  rcases List.mem_append.mp member with earlier | last
  · exact List.mem_append_left _ earlier
  · rw [List.mem_singleton.mp last]
    exact List.mem_append_right _ (mem_passed _ tail)

theorem prefix_move {step : String} (onward : step ≠ Path.back) (location : Location) :
    location <+: move location step := by
  rw [move, if_neg onward]
  split
  · exact List.prefix_refl location
  · exact List.prefix_append _ _

theorem prefix_of_mem_passed {location other : Location} {steps : List String}
    (onward : Path.back ∉ steps) (member : other ∈ passed location steps) : location <+: other := by
  induction steps generalizing location with
  | nil =>
    rw [List.mem_singleton.mp member]
    exact List.prefix_refl _
  | cons step rest ih =>
    rw [List.mem_cons, not_or] at onward
    rcases List.mem_cons.mp member with rfl | later
    · exact List.prefix_refl _
    · exact (prefix_move (Ne.symm onward.1) location).trans (ih onward.2 later)

namespace LeadsOn

variable {root path : String}

theorem refl (root : String) : LeadsOn root root :=
  ⟨[], (List.append_nil _).symm, List.not_mem_nil⟩

theorem join {next : String} (leads : LeadsOn root path) (below : next.startsWith '/' = false)
    (onward : Path.back ∉ Path.steps next) : LeadsOn root (Path.join path next) := by
  obtain ⟨tail, split, before⟩ := leads
  refine ⟨tail ++ Path.steps next, ?_, fun member => ?_⟩
  · rw [Path.steps_join below, split, List.append_assoc]
  · exact (List.mem_append.mp member).elim before onward

/-- What such a path passes lies below the root or is passed on the way to it. -/
theorem passed (leads : LeadsOn root path) {other : Location}
    (member : other ∈ passed [] (Path.steps path)) :
    place root <+: other ∨ other ∈ Files.passed [] (Path.steps root) := by
  obtain ⟨tail, split, onward⟩ := leads
  rw [split, passed_append] at member
  rcases List.mem_append.mp member with above | below
  · exact .inr (List.mem_append_left _ above)
  · exact .inl (prefix_of_mem_passed onward below)

theorem place (leads : LeadsOn root path) : place root <+: place path := by
  obtain ⟨tail, split, onward⟩ := leads
  rw [Files.place, Files.place, split, List.foldl_append]
  exact prefix_of_mem_passed onward (List.mem_append_right _ List.mem_cons_self)

end LeadsOn

namespace Disk

variable {disk middle later : Disk} {root path : String} {location : Location}

/-- Whether everything on a disk was on the one before, lies below a root, or is a directory on the
way to it. -/
def StaysBelow (root : String) (disk later : Disk) : Prop :=
  ∀ location node, later.node? location = some node →
    disk.node? location = some node ∨ place root <+: location ∨
      node = .directory ∧ location ∈ passed [] (Path.steps root)

namespace StaysBelow

theorem refl (root : String) (disk : Disk) : StaysBelow root disk disk :=
  fun _ _ found => .inl found

theorem trans (begun : StaysBelow root disk middle) (done : StaysBelow root middle later) :
    StaysBelow root disk later := by
  intro location node found
  rcases done location node found with before | added
  · exact begun location node before
  · exact .inr added

end StaysBelow

/-- Making directories, up to a failure too, adds only directories that the steps pass. -/
private theorem passed_of_addDirectories {steps : List String} (stands : disk.Stands location)
    {other : Location} {node : Node}
    (found : (disk.addDirectories location steps).2.node? other = some node) :
    disk.node? other = some node ∨ node = .directory ∧ other ∈ passed location steps := by
  induction steps generalizing disk location with
  | nil => exact .inl found
  | cons step rest ih =>
    rw [addDirectories_cons stands] at found
    rw [passed_cons]
    split at found
    · exact .inl found
    split at found
    · rename_i there
      exact (ih (stands.move there) found).imp_right (.imp_right (List.mem_cons_of_mem _))
    · exact .inl found
    · rename_i free
      split at found
      · exact .inl found
      have put := fun other =>
        node?_put disk (Files.move location step) other .directory (below_root free)
      have there : (disk.put (Files.move location step) .directory).HasDirectory
          (Files.move location step) := by
        rw [HasDirectory, put, if_pos rfl]
      rcases ih ((stands.grows (grows_put free .directory)).move there) found with before | made
      · rw [put] at before
        split at before
        · rename_i same
          rw [same]
          exact .inr ⟨(Option.some.inj before).symm, List.mem_cons_of_mem _ (mem_passed _ rest)⟩
        · exact .inl before
      · exact .inr (made.imp_right (List.mem_cons_of_mem _))

/-- The directories along a path stay below a root if the places that it passes do. -/
theorem staysBelow_addPath (disk : Disk)
    (covered : ∀ other ∈ passed [] (Path.steps path),
      place root <+: other ∨ other ∈ passed [] (Path.steps root)) :
    StaysBelow root disk (disk.addPath path).2 := by
  intro location node found
  unfold addPath at found
  split at found
  · exact .inl found
  · exact .inl found
  · rcases passed_of_addDirectories (.root disk) found with before | ⟨rfl, member⟩
    · exact .inl before
    · exact .inr ((covered location member).imp_right fun way => ⟨rfl, way⟩)

theorem staysBelow_addFile {content : List UInt8} (below : place root <+: place path)
    (added : disk.addFile path content = .ok later) : StaysBelow root disk later := by
  obtain ⟨free, rfl⟩ := eq_putFile_of_addFile added
  intro location node found
  rw [node?_putFile disk _ location _ (below_root free)] at found
  split at found
  · rename_i same
    rw [same]
    exact .inr (.inl below)
  · exact .inl found

end Disk

end ResourceClasses.Files
