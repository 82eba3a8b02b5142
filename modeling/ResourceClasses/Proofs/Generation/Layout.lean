import ResourceClasses.Proofs.Generation.Request

/-!
Where class files stand: a class is written below the output directory as it is named, so that the
file of a class tells its package and its type.

Main statement:
* `classPath_layout`: the path of a class file is the name of the class below the output directory,
  and no other class has a file at that place.
-/

set_option autoImplicit false

namespace ResourceClasses

namespace Name

/-- Whether a package is the default one or has components between its dots all of which are names
without slashes. -/
def IsPackage (package : String) : Prop :=
  package = "" ∨
    ∀ component ∈ Text.stretches '.' package.toList, component ≠ [] ∧ '/' ∉ component

/-- The components of a package, as its directory is made of them. -/
private theorem segments_eq {package : String}
    (components : ∀ component ∈ Text.stretches '.' package.toList,
      component ≠ [] ∧ '/' ∉ component) :
    Text.segments '.' package = (Text.stretches '.' package.toList).map String.ofList := by
  rw [Text.segments, List.filter_eq_self.mpr]
  intro component member
  simpa using (components component member).1

theorem IsPackage.steps {package : String} (proper : IsPackage package) :
    ∀ component ∈ Text.segments '.' package,
      component ≠ "" ∧ '/' ∉ component.toList ∧ '.' ∉ component.toList := by
  intro component member
  obtain ⟨some_char, chars⟩ := Text.mem_of_mem_segments member
  refine ⟨by rwa [Ne, ← String.toList_eq_nil_iff], ?_, fun dot => (chars '.' dot).2 rfl⟩
  rcases proper with rfl | components
  · contradiction
  · rw [segments_eq components] at member
    obtain ⟨part, inside, rfl⟩ := List.mem_map.mp member
    rw [String.toList_ofList]
    exact (components part inside).2

/-- A package is told by its components. -/
theorem IsPackage.eq_of_segments {package other : String} (proper : IsPackage package)
    (proper' : IsPackage other) (same : Text.segments '.' package = Text.segments '.' other) :
    package = other := by
  -- The default package is the only one without components.
  have some_component : ∀ {name : String}, (∀ component ∈ Text.stretches '.' name.toList,
      component ≠ [] ∧ '/' ∉ component) → Text.segments '.' name ≠ [] := by
    intro name components none_left
    rw [segments_eq components, List.map_eq_nil_iff] at none_left
    have whole : ((Text.stretches '.' name.toList).flatMap fun part => part ++ ['.']) = _ :=
      Text.flatMap_stretches '.' name.toList
    rw [none_left] at whole
    simp at whole
  rcases proper with rfl | components <;> rcases proper' with rfl | components'
  · rfl
  · exact absurd same.symm (some_component components')
  · exact absurd same (some_component components)
  · rw [segments_eq components, segments_eq components'] at same
    have injective : Function.Injective String.ofList := fun first second equal => by
      rw [← String.toList_ofList (l := first), equal, String.toList_ofList]
    have stretches := List.map_injective_iff.mpr injective same
    exact String.toList_injective (Text.stretches_injective stretches)

/-- The internal form of a package is its components with slashes between them. -/
theorem foldr_segments {package : String} (proper : IsPackage package) (some_package : package ≠ "")
    (simple : String) :
    (Text.segments '.' package).foldr (fun part later => part ++ "/" ++ later) simple =
      internal package ++ "/" ++ simple := by
  have components := proper.resolve_left some_package
  have joined : ∀ parts : List (List Char),
      (parts.map String.ofList).foldr (fun part later => part ++ "/" ++ later) simple =
        String.ofList (parts.flatMap fun part => part ++ ['/']) ++ simple := by
    intro parts
    induction parts with
    | nil => exact String.empty_append.symm
    | cons part rest ih =>
      rw [List.map_cons, List.foldr_cons, ih, List.flatMap_cons, String.ofList_append,
        String.ofList_append]
      simp only [String.append_assoc]
  rw [segments_eq components, joined, Text.flatMap_stretches, String.ofList_append]
  congr 2
  exact String.toList_injective (by rw [String.toList_ofList, internal, String.toList_map])

end Name

namespace Generation

open Files (foldl_move place)

/-- The name of a class of a package: of the outer class, or of that of a resource type. -/
def className (package : String) : Option ResourceType → String
  | none => Name.outer package
  | some type => Name.inner (Name.outer package) type

/-- Where a class of a package is written: the outer class, or that of a resource type. -/
def classPath (outDir package : String) : Option ResourceType → String
  | none => outerPath outDir package
  | some type => innerPath outDir package type

/-- The name of the file of a class in the directory of its package. -/
private def fileName : Option ResourceType → String
  | none => "R.class"
  | some type => "R$" ++ type.name ++ ".class"

variable {package : String} {kind : Option ResourceType}

private theorem classPath_eq (root package : String) (kind : Option ResourceType) :
    classPath root package kind = Path.join (Name.packageDir root package) (fileName kind) := by
  cases kind <;> rfl

private theorem className_eq (package : String) (kind : Option ResourceType) :
    className package kind ++ ".class" =
      if package = "" then fileName kind else Name.internal package ++ "/" ++ fileName kind := by
  have outer : "R" ++ ".class" = "R.class" := by decide
  have inner : ∀ behind, "R" ++ ("$" ++ behind) = "R$" ++ behind := by
    intro behind
    rw [← String.append_assoc]
    rfl
  cases kind <;>
    simp only [className, fileName, Name.inner, Name.outer, Name.outerSimpleName,
      String.isEmpty_iff] <;>
    split <;> simp only [String.append_assoc, outer, inner]

private theorem toList_fileName (kind : Option ResourceType) :
    ∃ rest, (fileName kind).toList = 'R' :: rest ∧ '/' ∉ rest := by
  cases kind with
  | none => exact ⟨['.', 'c', 'l', 'a', 's', 's'], by decide, by decide⟩
  | some type =>
    refine ⟨(fileName (some type)).toList.tail, ?_, ?_⟩ <;> cases type <;> decide

private theorem startsWith_fileName (kind : Option ResourceType) :
    (fileName kind).startsWith '/' = false := by
  obtain ⟨rest, chars, -⟩ := toList_fileName kind
  rw [String.startsWith_char_eq_head?, chars]
  rfl

private theorem fileName_injective : Function.Injective fileName := by
  intro first second same
  cases first with
  | none =>
    cases second with
    | none => rfl
    | some type => cases type <;> contradiction
  | some type =>
    cases second with
    | none => cases type <;> contradiction
    | some other =>
      rw [fileName, fileName, String.append_left_inj, String.append_right_inj] at same
      rw [ResourceType.name_injective same]

/-- A class file is at the place of its components and its name, below that of the root. -/
private theorem place_classPath (proper : Name.IsPackage package) (root : String)
    (kind : Option ResourceType) :
    place (classPath root package kind) =
      place root ++ (Text.segments '.' package ++ [fileName kind]) := by
  obtain ⟨rest, chars, no_slash⟩ := toList_fileName kind
  have last : Path.steps (fileName kind) = [fileName kind] := by
    refine Text.segments_of_not_mem ?_ ?_ <;> rw [chars]
    · exact List.cons_ne_nil _ _
    · exact fun member => no_slash ((List.mem_cons.mp member).resolve_left (by decide))
  have named : ∀ step ∈ Text.segments '.' package ++ [fileName kind],
      step ≠ Path.stay ∧ step ≠ Path.back := by
    rw [List.forall_mem_append]
    constructor
    · intro step member
      obtain ⟨-, -, no_dot⟩ := proper.steps step member
      constructor <;>
      · rintro rfl
        exact no_dot (by decide)
    · intro step member
      rw [List.mem_singleton.mp member]
      constructor <;>
      · intro same
        rw [same] at chars
        exact absurd (List.cons.inj chars).1 (by decide)
  have plain := fun step member => (proper.steps step member).imp_right And.left
  rw [classPath_eq, place, Path.steps_join (startsWith_fileName kind), last, Name.packageDir,
    Path.steps_foldl_join plain, List.append_assoc, List.foldl_append, foldl_move named]
  rfl

/-- The file of a class of a package stands below the output directory under the name of the class,
and only that class of that package has a file at this place. -/
theorem classPath_layout (proper : Name.IsPackage package) (root : String)
    (kind : Option ResourceType) :
    classPath root package kind = Path.join root (className package kind ++ ".class") ∧
      ∀ other kind', Name.IsPackage other →
        place (classPath root package kind) = place (classPath root other kind') →
          package = other ∧ kind = kind' := by
  constructor
  · rw [classPath_eq, className_eq]
    split
    · rename_i default
      rw [default]
      rfl
    · rename_i some_package
      have plain := fun step member => (proper.steps step member).imp_right And.left
      rw [Name.packageDir, Path.join_foldl plain (startsWith_fileName kind),
        Name.foldr_segments proper some_package]
  · intro other kind' proper' same
    rw [place_classPath proper, place_classPath proper'] at same
    obtain ⟨components, files⟩ := List.append_inj' (List.append_cancel_left same) rfl
    exact ⟨proper.eq_of_segments proper' components, fileName_injective (List.cons.inj files).1⟩

/-- The ids of `com.example` are in a file of their own, that of `com/example/R$id`. -/
theorem classPath_layout_ids :
    Name.IsPackage "com.example" ∧ Name.IsPackage "com" ∧
      classPath "out/" "com.example" (some .id) = "out/com/example/R$id.class" ∧
      place (classPath "out/" "com.example" (some .id)) ≠ place (classPath "out/" "com" none) := by
  have proper : Name.IsPackage "com.example" := .inr (by decide)
  have proper' : Name.IsPackage "com" := .inr (by decide)
  obtain ⟨path, only⟩ := classPath_layout proper "out/" (some .id)
  refine ⟨proper, proper', path.trans (by decide +kernel), ?_⟩
  intro same
  exact absurd (only "com" none proper' same).1 (by decide)

end Generation

end ResourceClasses
