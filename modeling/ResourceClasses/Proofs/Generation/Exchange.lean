import ResourceClasses.Proofs.Files.Deeds
import ResourceClasses.Proofs.Generation.SharedIdClass

/-!
Exchanged requests: two requests that succeed one after the other succeed in the other order too,
and leave the same builder and the same disk. What they write is the same, since the class that
holds the package id is written by whichever comes first.
-/

set_option autoImplicit false

namespace ResourceClasses.Generation

open Files (Disk Deed AllDone AllSupported Location Settles origins passed)

/-- What has to be done on a disk to write a class file of some bytes. -/
def PlannedFile.deeds (file : PlannedFile) (bytes : List UInt8) : List Deed :=
  (file.directory.map Deed.directories).toList ++ [.file file.path bytes]

/-- Whether some deeds are those of planned files, each with the bytes of its class. -/
inductive Amounts : List PlannedFile → List Deed → Prop
  | nil : Amounts [] []
  | cons {file : PlannedFile} {files : List PlannedFile} {bytes : List UInt8} {deeds : List Deed}
      (content : file.Content bytes) (rest : Amounts files deeds) :
      Amounts (file :: files) (file.deeds bytes ++ deeds)

namespace Amounts

variable {first second : List PlannedFile} {early late deeds : List Deed}

theorem append (one : Amounts first early) (another : Amounts second late) :
    Amounts (first ++ second) (early ++ late) := by
  induction one with
  | nil => exact another
  | cons content _ ih =>
    rw [List.append_assoc]
    exact .cons content ih

theorem append_inv (amounts : Amounts (first ++ second) deeds) :
    ∃ early late, deeds = early ++ late ∧ Amounts first early ∧ Amounts second late := by
  induction first generalizing deeds with
  | nil => exact ⟨[], deeds, rfl, .nil, amounts⟩
  | cons file rest ih =>
    cases amounts with
    | cons content tail =>
      obtain ⟨early, late, rfl, one, another⟩ := ih tail
      exact ⟨_, late, (List.append_assoc _ _ _).symm, .cons content one, another⟩

end Amounts

section

variable {disk later : Disk} {file : PlannedFile} {files : List PlannedFile} {bytes : List UInt8}

private theorem writes_iff_allDone :
    file.Writes disk bytes later ↔ file.Content bytes ∧ AllDone disk (file.deeds bytes) later := by
  unfold PlannedFile.deeds
  cases wanted : file.directory with
  | none =>
    have same : file.prepareOn disk = (.ok (), disk) := by rw [PlannedFile.prepareOn, wanted]
    constructor
    · rintro ⟨-, content, added⟩
      rw [same] at added
      exact ⟨content, .cons added .nil⟩
    · rintro ⟨content, _ | ⟨added, _ | _⟩⟩
      refine ⟨by rw [same], content, ?_⟩
      rw [same]
      exact added
  | some path =>
    have same : file.prepareOn disk = disk.addPath path := by rw [PlannedFile.prepareOn, wanted]
    constructor
    · rintro ⟨prepared, content, added⟩
      rw [same] at prepared added
      exact ⟨content, .cons (Prod.ext prepared rfl) (.cons added .nil)⟩
    · rintro ⟨content, _ | ⟨made, _ | ⟨added, _ | _⟩⟩⟩
      have made : file.prepareOn disk = (.ok (), _) := same.trans made
      refine ⟨by rw [made], content, ?_⟩
      rw [made]
      exact added

/-- Planned files can be written exactly if their deeds can be done. -/
theorem exists_writesAll_iff :
    (∃ created, WritesAll disk files created later) ↔
      ∃ deeds, Amounts files deeds ∧ AllDone disk deeds later := by
  induction files generalizing disk with
  | nil =>
    constructor
    · rintro ⟨_, ⟨⟩⟩
      exact ⟨[], .nil, .nil⟩
    · rintro ⟨_, ⟨⟩, ⟨⟩⟩
      exact ⟨[], .nil⟩
  | cons file rest ih =>
    constructor
    · rintro ⟨_, _ | ⟨first, others⟩⟩
      obtain ⟨content, done⟩ := writes_iff_allDone.mp first
      obtain ⟨deeds, amounts, others_done⟩ := ih.mp ⟨_, others⟩
      exact ⟨_, .cons content amounts, AllDone.append_iff.mpr ⟨_, done, others_done⟩⟩
    · rintro ⟨_, _ | ⟨content, amounts⟩, all⟩
      obtain ⟨middle, done, others_done⟩ := AllDone.append_iff.mp all
      obtain ⟨created, others⟩ := ih.mpr ⟨_, amounts, others_done⟩
      exact ⟨_, .cons (writes_iff_allDone.mpr ⟨content, done⟩) others⟩

end

variable {α β : Type} [ResourceField α] [ResourceField β]

namespace Builder

variable {builder : Builder} {request : Request α} {disk later : Disk} {count : Nat}

/-- The files that a request writes besides those of its package. -/
def pending (builder : Builder) (request : Request α) : List PlannedFile :=
  if request.selected.isEmpty then [] else builder.dueFiles

/-- The builder after a request that succeeds. -/
def next (builder : Builder) (request : Request α) : Builder :=
  if request.selected.isEmpty then builder else builder.finished

/-- Whether some deeds are those of the package of a request: its directory and its class files. -/
def PackageDeeds (builder : Builder) (request : Request α) (deeds : List Deed) : Prop :=
  if request.selected.isEmpty then deeds = [.directories (builder.directory request)]
  else Amounts (builder.packageFiles request.package request.selected) deeds

/-- A request succeeds exactly if the deeds of its package and of its pending files can be done. -/
theorem serve_eq_ok_iff {after : Builder} :
    builder.serve request disk = ⟨.ok count, after, later⟩ ↔
      count = request.selected.size ∧ after = builder.next request ∧
        ∃ own shared, builder.PackageDeeds request own ∧ Amounts (builder.pending request) shared ∧
          AllDone disk (own ++ shared) later := by
  unfold next pending PackageDeeds
  constructor
  · intro served
    have serves := builder.serves_serve request disk
    rw [served] at serves
    cases serves with
    | empty no_field made =>
      have no_count : request.selected.size = 0 := by
        rw [FieldTable.size, List.isEmpty_iff.mp no_field]
        rfl
      rw [no_count, no_field]
      exact ⟨rfl, rfl, _, [], rfl, .nil, .cons made .nil⟩
    | complete some_field writes =>
      obtain ⟨deeds, amounts, done⟩ := exists_writesAll_iff.mp ⟨_, writes⟩
      obtain ⟨own, shared, rfl, package, due⟩ := amounts.append_inv
      rw [some_field]
      exact ⟨rfl, rfl, own, shared, package, due, done⟩
  · rintro ⟨rfl, rfl, own, shared, package, due, done⟩
    cases known : request.selected.isEmpty with
    | true =>
      rw [known] at package due
      obtain rfl := package
      cases due
      rw [List.append_nil] at done
      obtain _ | ⟨made, _ | _⟩ := done
      rw [serve_of_made known made, FieldTable.size, List.isEmpty_iff.mp known]
      rfl
    | false =>
      rw [known] at package due
      obtain ⟨created, writes⟩ := exists_writesAll_iff.mpr ⟨_, package.append due, done⟩
      exact serve_of_writesAll known writes

end Builder

/-- Whichever of two requests comes first, the same files are written besides those of their
packages. -/
private theorem pending_exchange (builder : Builder) (first : Request α) (second : Request β) :
    builder.pending first ++ (builder.next first).pending second =
      builder.pending second ++ (builder.next second).pending first := by
  have done : builder.finished.dueFiles = [] := by
    unfold Builder.dueFiles Builder.finished
    cases builder.config.sharedId <;> simp
  unfold Builder.pending Builder.next
  cases first.selected.isEmpty <;> cases second.selected.isEmpty <;> simp [done]

private theorem next_exchange (builder : Builder) (first : Request α) (second : Request β) :
    (builder.next first).next second = (builder.next second).next first := by
  unfold Builder.next
  cases first.selected.isEmpty <;> cases second.selected.isEmpty <;> rfl

section

variable {there : Location → Prop} {builder : Builder} {request : Request α} {deeds : List Deed}

/-- A path whose steps do not end in one that stays in place, or consist of it, settles on any
disk. -/
private theorem settles_of_last {path : String} (root : there [])
    (last : ∀ front, Path.steps path = front ++ [Path.stay] → front = []) :
    Settles there path := by
  intro front tail split stays
  unfold Disk.staysInPlace at stays
  rw [Bool.and_eq_true, List.all_eq_true] at stays
  rcases List.eq_nil_or_concat' tail with rfl | ⟨others, step, rfl⟩
  · exact absurd stays.1 (by decide)
  · have stay := beq_iff_eq.mp (stays.2 step (List.mem_append_right _ List.mem_cons_self))
    rw [stay, ← List.append_assoc] at split
    rw [(List.append_eq_nil_iff.mp (last _ split)).1]
    exact .inl root

/-- A file in a directory needs the places that are passed on the way to it. -/
private theorem origins_join {directory name : String} (single : Path.steps name = [name])
    (below : name.startsWith '/' = false) :
    origins [] (Path.steps (Path.join directory name)) = passed [] (Path.steps directory) := by
  rw [Path.steps_join below, single, Files.origins_concat]

private theorem allSupported_inner {entries : List (ResourceType × List α)}
    (amounts : Amounts (entries.map (builder.innerFile request.package)) deeds)
    (known : ∀ other ∈ passed [] (Path.steps (builder.directory request)), there other) :
    AllSupported there deeds := by
  induction entries generalizing deeds with
  | nil =>
    cases amounts
    trivial
  | cons entry rest ih =>
    cases amounts with
    | cons content amounts =>
      refine .append ⟨?_, trivial⟩ (ih amounts)
      intro origin member
      have single : ∀ type : ResourceType,
          Path.steps ("R$" ++ type.name ++ ".class") = ["R$" ++ type.name ++ ".class"] := by
        intro type
        cases type <;> decide
      have below : ∀ type : ResourceType,
          ("R$" ++ type.name ++ ".class").startsWith '/' = false := by
        intro type
        cases type <;> decide
      rw [Builder.innerFile, innerPath, origins_join (single _) (below _)] at member
      exact known origin member

/-- The deeds of a package need nothing but a directory of the package that settles. -/
private theorem allSupported_package (own : builder.PackageDeeds request deeds)
    (settles : Settles there (builder.directory request)) : AllSupported there deeds := by
  unfold Builder.PackageDeeds at own
  split at own
  · rw [own]
    exact ⟨settles, trivial⟩
  · cases own with
    | cons content inner =>
      have outer : origins [] (Path.steps (Path.join (builder.directory request) "R.class")) =
          passed [] (Path.steps (builder.directory request)) := origins_join (by decide) (by decide)
      refine ⟨settles, fun origin member => .inr ?_, ?_⟩
      · have member : origin ∈ origins [] (Path.steps
            (Path.join (builder.directory request) "R.class")) := member
        rw [outer] at member
        exact member
      · exact (allSupported_inner inner fun other => .inr).mono fun other => .inl

/-- The deeds of the class that holds the package id need nothing. -/
private theorem allSupported_pending (root : there [])
    (due : Amounts (builder.pending request) deeds) : AllSupported there deeds := by
  unfold Builder.pending Builder.dueFiles at due
  split at due
  · cases due
    trivial
  split at due
  · cases due
    trivial
  rename_i shared _
  split at due
  · cases due
    trivial
  cases due with
  | cons content nothing =>
    cases nothing
    refine ⟨settles_of_last root fun front => Path.eq_nil_of_steps_directory, ?_, trivial⟩
    intro origin member
    have some_path : sharedIdPath builder.outDir shared ≠ "" :=
      Path.join_ne_empty (by simp [String.append_eq_empty_iff])
    obtain ⟨count, last, split⟩ := Path.steps_eq_directory some_path (endsWith_join_class _ _)
    rw [path_sharedIdFile, split, Files.origins_concat] at member
    exact .inr (Files.mem_of_mem_passed_replicate member)

private theorem packageDeeds_next (builder : Builder) (first : Request α) (second : Request β)
    (deeds : List Deed) :
    (builder.next first).PackageDeeds second deeds ↔ builder.PackageDeeds second deeds := by
  unfold Builder.next
  split <;> exact Iff.rfl

/-- A request that succeeds found the directory of its package settled. -/
private theorem settles_of_allDone {disk later : Disk} {others : List Deed}
    (own : builder.PackageDeeds request deeds) (done : AllDone disk (deeds ++ others) later) :
    Settles disk.HasDirectory (builder.directory request) := by
  have first : ∃ rest, deeds = .directories (builder.directory request) :: rest := by
    unfold Builder.PackageDeeds at own
    split at own
    · exact ⟨[], own⟩
    · cases own
      exact ⟨_, rfl⟩
  obtain ⟨rest, rfl⟩ := first
  cases done with
  | cons head _ => exact head.supported

end

private theorem perm_inner (a b c d : List Deed) :
    ((a ++ b) ++ (c ++ d)).Perm ((a ++ c) ++ (b ++ d)) := by
  rw [List.append_assoc, List.append_assoc]
  exact (List.perm_append_comm_assoc b c d).append_left a

/-- Two requests that succeed one after the other on a disk succeed in the other order too, with the
same counts, and leave the same builder and the same disk. The output directory has to settle on the
first disk if it is the directory of the package of the second request. -/
theorem serve_exchange {builder after last : Builder} {first : Request α} {second : Request β}
    {disk middle later : Disk} {m n : Nat}
    (settles : Text.segments '.' second.package = [] → Settles disk.HasDirectory builder.outDir)
    (one : builder.serve first disk = ⟨.ok m, after, middle⟩)
    (two : after.serve second middle = ⟨.ok n, last, later⟩) :
    ∃ after' middle' later',
      builder.serve second disk = ⟨.ok n, after', middle'⟩ ∧
        after'.serve first middle' = ⟨.ok m, last, later'⟩ ∧
        ∀ location, later'.node? location = later.node? location := by
  obtain ⟨rfl, rfl, own₁, shared₁, package₁, due₁, done₁⟩ := Builder.serve_eq_ok_iff.mp one
  obtain ⟨rfl, rfl, own₂, shared₂, package₂, due₂, done₂⟩ := Builder.serve_eq_ok_iff.mp two
  rw [packageDeeds_next] at package₂
  have due := due₁.append due₂
  rw [pending_exchange] at due
  obtain ⟨early, late, same, early_due, late_due⟩ := due.append_inv
  have second_settles : Settles disk.HasDirectory (builder.directory second) := by
    by_cases components : Text.segments '.' second.package = []
    · rw [Builder.directory, Name.packageDir, components]
      exact settles components
    · refine settles_of_last rfl fun front stays => ?_
      exact absurd stays (Name.steps_packageDir_ne components _ front)
  have first_settles := settles_of_allDone package₁ done₁
  have supported : AllSupported disk.HasDirectory ((own₂ ++ early) ++ (own₁ ++ late)) :=
    ((allSupported_package package₂ second_settles).append
      (allSupported_pending rfl early_due)).append
        ((allSupported_package package₁ first_settles).append (allSupported_pending rfl late_due))
  have rearranged : ((own₁ ++ shared₁) ++ (own₂ ++ shared₂)).Perm
      ((own₂ ++ early) ++ (own₁ ++ late)) := by
    refine (perm_inner _ _ _ _).trans ?_
    rw [same]
    exact (List.perm_append_comm.append_right _).trans (perm_inner _ _ _ _)
  obtain ⟨later', done, nodes⟩ :=
    (AllDone.append_iff.mpr ⟨_, done₁, done₂⟩).rearrange rearranged supported
  obtain ⟨middle', begun, finished⟩ := AllDone.append_iff.mp done
  rw [← packageDeeds_next builder second] at package₁
  refine ⟨builder.next second, middle', later', ?_, ?_, nodes⟩
  · exact Builder.serve_eq_ok_iff.mpr ⟨rfl, rfl, _, _, package₂, early_due, begun⟩
  · rw [next_exchange]
    exact Builder.serve_eq_ok_iff.mpr ⟨rfl, rfl, _, _, package₁, late_due, finished⟩

/-- A request that writes the class of the package id can be exchanged with one that finds all
directories there. -/
theorem serve_exchange_ids :
    (Text.segments '.' idsNothing.package = [] →
      Settles Disk.empty.HasDirectory idsBuilder.outDir) ∧
    ∃ later after' middle' later',
      idsBuilder.serve idsRequest Disk.empty = ⟨.ok 1, idsBuilder.finished, later⟩ ∧
        idsBuilder.finished.serve idsNothing later = ⟨.ok 0, idsBuilder.finished, later⟩ ∧
        idsBuilder.serve idsNothing Disk.empty = ⟨.ok 0, after', middle'⟩ ∧
        after'.serve idsRequest middle' = ⟨.ok 1, idsBuilder.finished, later'⟩ ∧
        ∀ location, later'.node? location = later.node? location := by
  have settles : Settles Disk.empty.HasDirectory idsBuilder.outDir :=
    settles_of_last rfl fun front stays => (List.append_eq_nil_iff.mp stays.symm).1
  obtain ⟨-, later, -, one⟩ := idsRequest_served
  have two : idsBuilder.finished.serve idsNothing later =
      ⟨.ok 0, idsBuilder.finished, later⟩ := rfl
  obtain ⟨after', middle', later', exchanged⟩ := serve_exchange (fun _ => settles) one two
  exact ⟨fun _ => settles, later, after', middle', later', one, two, exchanged⟩

/-- A builder whose output directory is written with a step that stays in it. -/
def stayingBuilder : Builder :=
  { outDir := "a/.", config := {} }

/-- A request for a package below the output directory, without fields. -/
def belowNothing : Request Symbol :=
  ⟨"b", .empty, none⟩

/-- Where the output directory does not settle, a request for its own package succeeds after one for
a package below it and fails before. -/
theorem not_serve_exchange_staying :
    ∃ middle, stayingBuilder.serve belowNothing Disk.empty = ⟨.ok 0, stayingBuilder, middle⟩ ∧
      stayingBuilder.serve idsNothing middle = ⟨.ok 0, stayingBuilder, middle⟩ ∧
      stayingBuilder.serve idsNothing Disk.empty =
        ⟨.error (.file "a/." .notFound), stayingBuilder, .empty⟩ := by
  have root : ∀ disk : Disk, disk.node? [] = some .directory := fun _ => rfl
  have missing : ∀ location : Location, location.isEmpty = false →
      Disk.empty.node? location = none := by
    intro location below
    simp [Disk.node?, Disk.empty, below]
  have below_steps : Path.steps "a/./b" = ["a", Path.stay, "b"] := by decide
  have staying_steps : Path.steps "a/." = ["a", Path.stay] := by decide
  have first : Disk.empty.addPath "a/./b" = (.ok (),
      (Disk.empty.put ["a"] .directory).put ["a", "b"] .directory) := by
    simp +decide [Disk.addPath, below_steps, Disk.resolve, Disk.addDirectories, Disk.enter, root,
      missing, Disk.node?_put, bind, Except.bind]
  have second : ((Disk.empty.put ["a"] .directory).put ["a", "b"] .directory).addPath "a/." =
      (.ok (), (Disk.empty.put ["a"] .directory).put ["a", "b"] .directory) := by
    simp +decide [Disk.addPath, staying_steps, Disk.resolve, Disk.addDirectories, Disk.enter, root,
      Disk.node?_put, bind, Except.bind]
  have refused : Disk.empty.addPath "a/." = (.error .notFound, Disk.empty) := by
    simp +decide [Disk.addPath, staying_steps, Disk.resolve, Disk.addDirectories, Disk.enter, root,
      missing, bind, Except.bind]
  have below : stayingBuilder.directory belowNothing = "a/./b" := by decide +kernel
  have own : stayingBuilder.directory idsNothing = "a/." := by decide
  rw [← below] at first
  rw [← own] at second refused
  exact ⟨_, Builder.serve_of_made rfl first, Builder.serve_of_made rfl second,
    Builder.serve_of_refused rfl refused⟩

end ResourceClasses.Generation
