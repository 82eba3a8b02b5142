import ResourceClasses.Field.Symbol
import ResourceClasses.Proofs.Files.Below
import ResourceClasses.Proofs.Generation.Request

/-!
What a request makes stays below the output directory if no component of the package, and no name of
the class that holds the package id, starts at the root of the file system. Where one does, the
output directory has no part in the path.

Main statement:
* `serve_stays_below`: for which requests everything stays below the output directory.
-/

set_option autoImplicit false

namespace ResourceClasses

open Files (Disk LeadsOn Location place)

namespace Name

/-- A package none of whose components starts at the root leads on from where its classes go. -/
theorem leadsOn_packageDir {package : String}
    (relative : ∀ component ∈ Text.segments '.' package, component.startsWith '/' = false)
    (root : String) : LeadsOn root (packageDir root package) := by
  have onward : ∀ component ∈ Text.segments '.' package, Path.back ∉ Path.steps component := by
    intro component member inside
    have dot := (Text.mem_of_mem_segments inside).2 '.' (by decide)
    exact ((Text.mem_of_mem_segments member).2 '.' dot.1).2 rfl
  unfold packageDir
  suffices each : ∀ path, LeadsOn root path →
      LeadsOn root ((Text.segments '.' package).foldl Path.join path) from each root (.refl root)
  generalize Text.segments '.' package = components at relative onward
  induction components with
  | nil => exact fun _ leads => leads
  | cons component rest ih =>
    rw [List.forall_mem_cons] at relative onward
    intro path leads
    exact ih relative.2 onward.2 _ (leads.join relative.1 onward.1)

/-- A component that starts at the root hides where the classes go. -/
theorem packageDir_of_absolute {package component : String}
    (member : component ∈ Text.segments '.' package) (absolute : component.startsWith '/' = true)
    (root other : String) : packageDir root package = packageDir other package := by
  unfold packageDir
  generalize Text.segments '.' package = components at member
  induction components generalizing root other with
  | nil => exact absurd member List.not_mem_nil
  | cons first rest ih =>
    rw [List.foldl_cons, List.foldl_cons]
    rcases List.mem_cons.mp member with rfl | later
    · rw [Path.join, Path.join, if_pos absolute, if_pos absolute]
    · exact ih _ _ later

private theorem toList_internal (dotted : String) :
    (internal dotted).toList = dotted.toList.map fun c => if c = '.' then '/' else c :=
  String.toList_map

theorem not_dot_mem_internal (dotted : String) : '.' ∉ (internal dotted).toList := by
  rw [toList_internal, List.mem_map]
  rintro ⟨c, -, same⟩
  split at same
  · exact absurd same (by decide)
  · contradiction

/-- The file of a class starts at the root if its dotted name starts with a dot or a slash. -/
theorem startsWith_internal (dotted : String) :
    (internal dotted ++ ".class").startsWith '/' =
      (dotted.startsWith '.' || dotted.startsWith '/') := by
  have suffix : ".class".toList = ['.', 'c', 'l', 'a', 's', 's'] := by decide
  rw [String.startsWith_char_eq_head?, String.startsWith_char_eq_head?,
    String.startsWith_char_eq_head?, String.toList_append, toList_internal, suffix]
  cases dotted.toList with
  | nil => decide
  | cons c rest =>
    by_cases dot : c = '.'
    · simp [dot]
    · simp [dot]

/-- The file of a class is named without a step back, since there is one dot in its name. -/
theorem not_back_mem_steps_internal (dotted : String) :
    Path.back ∉ Path.steps (internal dotted ++ ".class") := by
  intro member
  have dots := (Text.sublist_of_mem_segments member).count_le '.'
  have one : ".class".toList.count '.' = 1 := by decide
  have two : Path.back.toList.count '.' = 2 := by decide
  rw [String.toList_append, List.count_append, one, two,
    List.count_eq_zero_of_not_mem (not_dot_mem_internal dotted)] at dots
  omega

end Name

namespace Generation

variable {α : Type} [ResourceField α] {disk middle later : Disk} {root : String}

/-- Whether a class file stays below a root: its path leads on from there, and the directory that is
made for it is on the way to it. -/
structure PlannedFile.Below (root : String) (file : PlannedFile) : Prop where
  path : LeadsOn root file.path
  directory : ∀ directory, file.directory = some directory →
    Files.passed [] (Path.steps directory) ⊆ Files.passed [] (Path.steps file.path)

namespace PlannedFile.Below

variable {file : PlannedFile}

theorem prepareOn (below : file.Below root) (disk : Disk) :
    Disk.StaysBelow root disk (file.prepareOn disk).2 := by
  unfold PlannedFile.prepareOn
  split
  · rename_i directory wanted
    refine Disk.staysBelow_addPath disk fun other member => ?_
    exact below.path.passed (below.directory directory wanted member)
  · exact .refl root disk

theorem writes {bytes : List UInt8} (below : file.Below root)
    (writes : file.Writes disk bytes later) : Disk.StaysBelow root disk later :=
  (below.prepareOn disk).trans (Disk.staysBelow_addFile below.path.place writes.added)

end PlannedFile.Below

theorem WritesAll.staysBelow {files : List PlannedFile} {created : List (Location × List UInt8)}
    (writes : WritesAll disk files created later) (below : ∀ file ∈ files, file.Below root) :
    Disk.StaysBelow root disk later := by
  induction writes with
  | nil => exact .refl root _
  | cons first _ ih =>
    rw [List.forall_mem_cons] at below
    exact (below.1.writes first).trans (ih below.2)

namespace Builder

/-- Whether no component of the package of a request starts at the root, and, if the class that
holds the package id is written with it, its name does not either. -/
structure Relative (builder : Builder) (request : Request α) : Prop where
  package : ∀ component ∈ Text.segments '.' request.package, component.startsWith '/' = false
  sharedId : ∀ shared, builder.config.sharedId = some shared → builder.sharedIdWritten = false →
    request.selected.isEmpty = false →
      shared.className.startsWith '.' = false ∧ shared.className.startsWith '/' = false

/-- The directory and the files that a request makes. -/
def paths (builder : Builder) (request : Request α) : List String :=
  builder.directory request ::
    if request.selected.isEmpty then []
    else (builder.planned request.package request.selected).map PlannedFile.path

variable {builder : Builder} {request : Request α}

/-- A file in the directory of a package stays below the output directory with it. -/
private theorem below_package (relative : builder.Relative request) {name : String}
    (single : Path.steps name = [name]) (below : name.startsWith '/' = false)
    (onward : name ≠ Path.back) :
    LeadsOn builder.outDir (Path.join (builder.directory request) name) ∧
      Files.passed [] (Path.steps (builder.directory request)) ⊆
        Files.passed [] (Path.steps (Path.join (builder.directory request) name)) := by
  refine ⟨(Name.leadsOn_packageDir relative.package builder.outDir).join below ?_, ?_⟩
  · rw [single, List.mem_singleton]
    exact Ne.symm onward
  · rw [Path.steps_join below]
    exact Files.passed_subset_append [] _ _

private theorem below_outerFile (relative : builder.Relative request)
    (types : List ResourceType) :
    (builder.outerFile request.package types).Below builder.outDir := by
  have single : Path.steps "R.class" = ["R.class"] := by decide
  obtain ⟨leads, passes⟩ := below_package relative single (by decide) (by decide)
  refine ⟨?_, fun directory wanted => ?_⟩
  · rw [path_outerFile]
    exact leads
  · rw [outerFile, Option.some.injEq] at wanted
    rw [← wanted, path_outerFile]
    exact passes

private theorem below_innerFile (relative : builder.Relative request)
    (entry : ResourceType × List α) :
    (builder.innerFile request.package entry).Below builder.outDir := by
  have single : ∀ type : ResourceType,
      Path.steps ("R$" ++ type.name ++ ".class") = ["R$" ++ type.name ++ ".class"] ∧
        ("R$" ++ type.name ++ ".class").startsWith '/' = false ∧
          "R$" ++ type.name ++ ".class" ≠ Path.back := by
    intro type
    cases type <;> decide
  obtain ⟨one, below, onward⟩ := single entry.1
  obtain ⟨leads, -⟩ := below_package relative one below onward
  refine ⟨?_, fun directory never => absurd never (Option.some_ne_none directory).symm⟩
  rw [innerFile, innerPath]
  exact leads

/-- The class that holds the package id stays below a root unless its file starts at the root of
the file system. -/
private theorem below_sharedIdFile {shared : SharedId}
    (relative : (shared.internalName ++ ".class").startsWith '/' = false) (root : String) :
    (sharedIdFile root shared).Below root := by
  have some_path : sharedIdPath root shared ≠ "" :=
    Path.join_ne_empty (by simp [String.append_eq_empty_iff])
  obtain ⟨count, last, split⟩ := Path.steps_eq_directory some_path (endsWith_join_class _ _)
  refine ⟨?_, fun directory wanted => ?_⟩
  · rw [path_sharedIdFile]
    exact (LeadsOn.refl root).join relative (Name.not_back_mem_steps_internal _)
  · rw [sharedIdFile, Option.some.injEq] at wanted
    rw [← wanted, path_sharedIdFile, split, List.append_assoc]
    exact Files.passed_subset_append [] _ _

private theorem below_planned (relative : builder.Relative request)
    (some_field : request.selected.isEmpty = false) :
    ∀ file ∈ builder.planned request.package request.selected, file.Below builder.outDir := by
  intro file member
  rcases List.mem_append.mp member with own | due
  · rcases List.mem_cons.mp own with rfl | inner
    · exact below_outerFile relative _
    · obtain ⟨entry, -, rfl⟩ := List.mem_map.mp inner
      exact below_innerFile relative entry
  · unfold dueFiles at due
    split at due
    · exact absurd due List.not_mem_nil
    rename_i shared known
    split at due
    · exact absurd due List.not_mem_nil
    rename_i missing
    rw [List.mem_singleton.mp due]
    obtain ⟨dot, slash⟩ :=
      relative.sharedId shared known (eq_false_of_ne_true missing) some_field
    refine below_sharedIdFile ?_ builder.outDir
    rw [SharedId.internalName, Name.startsWith_internal, dot, slash]
    rfl

theorem Relative.staysBelow (relative : builder.Relative request) (disk : Disk) :
    Disk.StaysBelow builder.outDir disk (builder.serve request disk).disk := by
  have made : Disk.StaysBelow builder.outDir disk
      (disk.addPath (builder.directory request)).2 :=
    Disk.staysBelow_addPath disk fun _ =>
      (Name.leadsOn_packageDir relative.package builder.outDir).passed
  have serves := builder.serves_serve request disk
  generalize builder.serve request disk = reply at serves
  cases serves with
  | empty _ done =>
    rw [done] at made
    exact made
  | blocked _ failed =>
    rw [failed] at made
    exact made
  | complete some_field writes =>
    exact writes.staysBelow (below_planned relative some_field)
  | @stopped written others file _ middle _ some_field split writes _ =>
    have below := below_planned relative some_field
    rw [split, List.forall_mem_append, List.forall_mem_cons] at below
    exact (writes.staysBelow below.1).trans (below.2.1.prepareOn middle)

/-- No place lies below all roots. -/
private theorem not_below_all (location : Location) : ¬∀ root, place root <+: location := by
  intro all
  obtain ⟨one, first⟩ := all "x"
  obtain ⟨other, second⟩ := all "y"
  have x : place "x" = ["x"] := by decide
  have y : place "y" = ["y"] := by decide
  rw [← second, x, y, List.singleton_append, List.singleton_append, List.cons.injEq] at first
  exact absurd first.1 (by decide)

/-- What a request makes stays below the output directory, up to a failure too, if its package and
the class that holds the package id are named relative to it; and only then do the paths lie below
every directory that can be given for the output. -/
theorem serve_stays_below (builder : Builder) (request : Request α) :
    (builder.Relative request → ∀ disk,
      Disk.StaysBelow builder.outDir disk (builder.serve request disk).disk) ∧
    (builder.Relative request ↔ ∀ root,
      ∀ path ∈ { builder with outDir := root }.paths request, place root <+: place path) := by
  refine ⟨Relative.staysBelow, ?_, ?_⟩
  · intro relative root path member
    have moved : { builder with outDir := root }.Relative request := ⟨relative.1, relative.2⟩
    rcases List.mem_cons.mp member with rfl | planned
    · exact (Name.leadsOn_packageDir relative.package root).place
    · split at planned
      · exact absurd planned List.not_mem_nil
      · rename_i some_field
        obtain ⟨file, inside, rfl⟩ := List.mem_map.mp planned
        exact (below_planned moved (eq_false_of_ne_true some_field) file inside).path.place
  · intro below
    refine ⟨fun component member => ?_, fun shared known missing some_field => ?_⟩
    · -- Otherwise one directory lies below all roots.
      by_contra absolute
      refine not_below_all (place (Name.packageDir "" request.package)) fun root => ?_
      rw [Name.packageDir_of_absolute member (eq_true_of_ne_false absolute) "" root]
      exact below root _ List.mem_cons_self
    · have named : (shared.internalName ++ ".class").startsWith '/' = false := by
        by_contra absolute
        refine not_below_all (place (shared.internalName ++ ".class")) fun root => ?_
        have hidden : sharedIdPath root shared = shared.internalName ++ ".class" := by
          rw [sharedIdPath, Path.join, if_pos (eq_true_of_ne_false absolute)]
        rw [← hidden]
        refine below root _ (List.mem_cons_of_mem _ ?_)
        rw [if_neg (by rw [some_field]; exact Bool.false_ne_true)]
        refine List.mem_map.mpr ⟨sharedIdFile root shared, List.mem_append_right _ ?_, rfl⟩
        simp [dueFiles, known, missing]
      rw [SharedId.internalName, Name.startsWith_internal, Bool.or_eq_false_iff] at named
      exact named

/-- A request of a package with two components, for a builder that writes the class of the package
id into the directory of the first. -/
def nestedRequest : Request Symbol :=
  ⟨"a.b", FieldTable.empty.push .id ⟨"one", .int 0x7f010001, none⟩, none⟩

def nestedBuilder : Builder :=
  { outDir := "out", config := { sharedId := some ⟨"a.Ids", 0x7f000000⟩ } }

theorem serve_stays_below_nested (disk : Disk) :
    nestedBuilder.Relative nestedRequest ∧
      Disk.StaysBelow "out" disk (nestedBuilder.serve nestedRequest disk).disk := by
  have relative : nestedBuilder.Relative nestedRequest := by
    refine ⟨by decide, ?_⟩
    rintro shared ⟨⟩ - -
    decide
  exact ⟨relative, (serve_stays_below nestedBuilder nestedRequest).1 relative disk⟩

/-- A request for a package that is named from the root of the file system, without fields. -/
def rootedRequest : Request Symbol :=
  ⟨"/tmp/outside_the_root", .empty, none⟩

def plainBuilder : Builder :=
  { outDir := "out", config := {} }

/-- Such a request makes a directory that does not lie below the output directory. -/
theorem rootedRequest_leaves :
    ¬Disk.StaysBelow "out" .empty (plainBuilder.serve rootedRequest .empty).disk := by
  have root : ∀ disk : Disk, disk.node? [] = some .directory := fun _ => rfl
  have missing : ∀ location : Location, location.isEmpty = false →
      Disk.empty.node? location = none := by
    intro location below
    simp [Disk.node?, Disk.empty, below]
  have own : plainBuilder.directory rootedRequest = "/tmp/outside_the_root" := by
    have single : Text.segments '.' rootedRequest.package = ["/tmp/outside_the_root"] := by decide
    have absolute : "/tmp/outside_the_root".startsWith '/' = true := by decide
    rw [directory, Name.packageDir, single, List.foldl_cons, Path.join, if_pos absolute]
    rfl
  have steps : Path.steps "/tmp/outside_the_root" = ["tmp", "outside_the_root"] := by decide
  have made : Disk.empty.addPath (plainBuilder.directory rootedRequest) = (.ok (),
      (Disk.empty.put ["tmp"] .directory).put ["tmp", "outside_the_root"] .directory) := by
    rw [own]
    simp +decide [Disk.addPath, steps, Disk.resolve, Disk.addDirectories, Disk.enter, root,
      missing, Disk.node?_put, bind, Except.bind]
  rw [serve_of_made rfl made]
  intro stays
  have there : ((Disk.empty.put ["tmp"] .directory).put ["tmp", "outside_the_root"]
      .directory).node? ["tmp"] = some .directory := by
    simp [Disk.node?_put]
  have no_place : ¬place "out" <+: ["tmp"] := by decide
  have no_way : ["tmp"] ∉ Files.passed [] (Path.steps "out") := by decide
  rcases stays ["tmp"] _ there with before | below | ⟨-, way⟩
  · rw [missing ["tmp"] rfl] at before
    cases before
  · exact no_place below
  · exact no_way way

end Builder

end Generation

end ResourceClasses
