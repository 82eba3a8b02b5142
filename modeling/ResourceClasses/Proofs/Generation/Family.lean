import ResourceClasses.Proofs.Generation.EndToEnd
import ResourceClasses.Proofs.Generation.Request

/-!
Families of classes: the classes of a package name each other, as they are read from the disk.

Main statement:
* `generate_linked`: a generation that succeeds leaves an outer class that lists the class of each
  type with a field, and each of these lists itself in the same way and has the fields of its type.
-/

set_option autoImplicit false

namespace ResourceClasses.Generation

open ClassFile (ClassDecl InnerClass Member)
open Files (Disk runOn)

/-- Whether the file at a path of a disk is read as a class. -/
def ClassAt (disk : Disk) (path : String) (file : ClassFile) : Prop :=
  ∃ bytes, disk.read path = .ok bytes ∧ ClassFile.parse bytes = .ok file

/-- How the class of a resource type is to be listed, as a static member of an outer class. -/
def linkTo (outer : String) (type : ResourceType) : InnerClass where
  inner := outer ++ "$" ++ type.name
  outer := some outer
  simpleName := some type.name
  access :=
    ClassFile.Access.publicFlag ||| ClassFile.Access.staticFlag ||| ClassFile.Access.finalFlag

/-- Whether a class is the one that an entry lists: it has its name, lists this entry and no other,
and has fields with the names of the given ones, in order. -/
structure Linked (entry : InnerClass) (fields : List Symbol) (file : ClassFile) : Prop where
  name : file.thisClass = entry.inner
  entries : file.innerClasses = [entry]
  fields : file.fields.map Member.name = fields.map Symbol.name

variable {builder finished : Builder} {package : String} {fields : FieldTable Symbol} {count : Nat}
  {disk later : Disk}

private theorem innerEntry_eq_linkTo : innerEntry = linkTo := by
  funext outer type
  rfl

/-- A planned class none of whose parts is cut off is read back once all the plan is written. -/
private theorem exists_classAt {files : List PlannedFile}
    {created : List (Files.Location × List UInt8)} (writes : WritesAll disk files created later)
    {file : PlannedFile} (member : file ∈ files) (named : file.path.endsWith '/' = false)
    (fits : ∀ decl, file.decl = .ok decl → decl.Fits) :
    ∃ decl read, file.decl = .ok decl ∧ ClassAt later file.path read ∧ decl.ReadAs read := by
  obtain ⟨bytes, ⟨decl, declared, written⟩, found⟩ := writes.exists_read member named
  obtain ⟨read, reads, same⟩ := ClassDecl.reads_toBytes (fits decl declared) written
  exact ⟨decl, read, declared, ⟨bytes, found, ClassDecl.parse_of_reads reads⟩, same⟩

private theorem exists_outer {created : List (Files.Location × List UInt8)}
    (writes : WritesAll disk (builder.planned package fields) created later) :
    ∃ outer, ClassAt later (outerPath builder.outDir package) outer ∧
      (outerClass (Name.outer package) builder.config fields.types).ReadAs outer := by
  have types_eq : fields.toList.map Prod.fst = fields.types := by
    rw [FieldTable.toList_eq, List.map_map]
    exact List.map_id _
  have outer_planned : builder.outerFile package (fields.toList.map Prod.fst) ∈
      builder.planned package fields := List.mem_cons_self
  have fits : ∀ decl, (builder.outerFile package (fields.toList.map Prod.fst)).decl = .ok decl →
      decl.Fits := by
    rintro _ ⟨⟩
    exact fits_outerClass _ _ _
  obtain ⟨decl, outer, declared, found, same⟩ :=
    exists_classAt writes outer_planned
      (endsWith_join_class (Name.packageDir builder.outDir package) "R") fits
  cases declared
  rw [types_eq] at same
  exact ⟨outer, found, same⟩

private theorem exists_inner {created : List (Files.Location × List UInt8)}
    (writes : WritesAll disk (builder.planned package fields) created later) {type : ResourceType}
    (member : type ∈ fields.types) :
    ∃ inner, ClassAt later (innerPath builder.outDir package type) inner ∧
      Linked (linkTo (Name.outer package) type) (fields.ofType type) inner := by
  have planned : builder.innerFile package (type, fields.ofType type) ∈
      builder.planned package fields := by
    refine List.mem_append_left _ (List.mem_cons_of_mem _ (List.mem_map_of_mem ?_))
    exact fields.mem_toList type (FieldTable.mem_types_iff.mp member)
  have made_of : ∀ decl, (builder.innerFile package (type, fields.ofType type)).decl = .ok decl →
      decl.Fits ∧ ∃ blocks,
        decl =
          innerClassOf (Name.outer package) type (fields.ofType type) builder.config blocks := by
    intro decl made
    obtain ⟨blocks, cutting, rfl⟩ := innerClass_ok made
    exact ⟨fits_innerClassOf (cut_fits (addable_symbols _ _) cutting).1, blocks, rfl⟩
  obtain ⟨decl, inner, made, found, same⟩ :=
    exists_classAt writes planned (endsWith_join_class _ _) fun decl made => (made_of decl made).1
  obtain ⟨-, blocks, rfl⟩ := made_of decl made
  refine ⟨inner, found, same.name, same.innerClasses, ?_⟩
  refine map_eq_of_forall₂ (List.forall₂_map_left_iff.mp same.fields) ?_
  intro symbol member read
  exact read.name

/-- A generation with fields that succeeds leaves classes that are linked: the outer class has no
fields and lists a static member for each type that there are fields of, in order; the class of each
type is what its entry says, and lists that entry alone; and the count is that of all their
fields. -/
theorem generate_linked (some_field : fields.isEmpty = false)
    (done : runOn (builder.generate package fields) disk = (.ok (count, finished), later)) :
    fields.types.Nodup ∧ (∀ type, type ∈ fields.types ↔ fields.ofType type ≠ []) ∧
      ∃ outer inners,
        ClassAt later (outerPath builder.outDir package) outer ∧
          outer.thisClass = Name.outer package ∧ outer.fields = [] ∧
          outer.innerClasses = fields.types.map (linkTo (Name.outer package)) ∧
          List.Forall₂ (fun type inner =>
            ClassAt later (innerPath builder.outDir package type) inner ∧
              Linked (linkTo (Name.outer package) type) (fields.ofType type) inner)
            fields.types inners ∧
          count = total (inners.map fun inner => inner.fields.length) := by
  refine ⟨fields.nodup_types, fun type => FieldTable.mem_types_iff, ?_⟩
  obtain ⟨counted, created, writes⟩ := writesAll_of_generate some_field done
  obtain ⟨outer, outer_found, outer_same⟩ := exists_outer writes
  obtain ⟨inners, linked⟩ := exists_forall₂ fun _ member => exists_inner writes member
  refine ⟨outer, inners, outer_found, outer_same.name, ?_, ?_, linked, ?_⟩
  · exact List.forall₂_nil_left_iff.mp outer_same.fields
  · rw [outer_same.innerClasses, ← innerEntry_eq_linkTo]
    rfl
  · rw [counted, FieldTable.size_eq]
    congr 1
    refine (map_eq_of_forall₂ linked ?_).symm
    rintro type inner ⟨-, same⟩
    have lengths := congrArg List.length same.fields
    rwa [List.length_map, List.length_map] at lengths

/-- The class of the ids is listed by `R` as it lists itself. -/
theorem generate_linked_ids :
    ∃ later outer inner,
      runOn (sampleBuilder.generate "" (FieldTable.empty.push .id sampleSymbol)) Disk.empty =
          (.ok (1, sampleBuilder), later) ∧
        ClassAt later "R.class" outer ∧ outer.innerClasses = [⟨"R$id", some "R", some "id", 25⟩] ∧
        ClassAt later "R$id.class" inner ∧ inner.thisClass = "R$id" ∧
        inner.innerClasses = outer.innerClasses ∧ inner.fields.map Member.name = ["one"] := by
  obtain ⟨later, generated⟩ := sample_generated
  obtain ⟨-, -, outer, inners, outer_found, -, -, entries, linked, -⟩ :=
    generate_linked rfl generated
  obtain ⟨inner, rest, ⟨inner_found, same⟩, -, rfl⟩ := List.forall₂_cons_left_iff.mp linked
  exact ⟨later, outer, inner, generated, outer_found, entries, inner_found, same.name,
    same.entries.trans entries.symm, same.fields⟩

end ResourceClasses.Generation
