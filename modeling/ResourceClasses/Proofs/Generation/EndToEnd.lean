import ResourceClasses.Proofs.Generation.ReadBack
import ResourceClasses.Proofs.Generation.Request
import ResourceClasses.Proofs.Generation.Values
import ResourceClasses.Proofs.SymbolFile.Entries

/-!
From symbol files to values: the class files that a generation leaves on the disk, once they are
read and initialized, have the values that the symbol files declare.
-/

set_option autoImplicit false

namespace ResourceClasses

open ClassFile (Member)
open Machine

/-- Whether a class file that has been initialized holds a symbol in a static field. -/
structure ClassFile.Holds (file : ClassFile) (shared : Option SharedId) (q : Int32) (last : State)
    (symbol : Symbol) (field : Member) : Prop where
  name : field.name = symbol.name
  descriptor : field.descriptor = symbol.descriptor
  static : isStatic field.access = true
  value : last.value? (Program.ofFile file (heldPackageId shared q))
    ⟨file.thisClass, field.name, field.descriptor⟩ = some (symbol.value.rebased shared q)

namespace Generation

open Files (Disk runOn)

/-- A class of a resource type that is written is read back, and once it is initialized its fields
hold its symbols in order. -/
theorem innerClass_readBack {outer directory : String} {type : ResourceType}
    {symbols : List Symbol} {config : Config} {decl : ClassFile.ClassDecl} {bytes : List UInt8}
    (done : innerClass outer type symbols directory config = .ok decl)
    (distinct : (symbols.map Symbol.name).Nodup) (written : decl.toBytes = .ok bytes) :
    ∃ file, ClassFile.parse bytes = .ok file ∧ file.thisClass = Name.inner outer type ∧
      ∀ q, ∃ last,
        Initializes (Program.ofFile file (heldPackageId config.sharedId q)) file.thisClass last ∧
          List.Forall₂ (file.Holds config.sharedId q last) symbols file.fields := by
  obtain ⟨blocks, cutting, rfl⟩ := innerClass_ok done
  have fits := (cut_fits (addable_symbols _ _) cutting).1
  obtain ⟨file, reads, same⟩ :=
    ClassFile.ClassDecl.reads_toBytes (fits_innerClassOf fits) written
  refine ⟨file, ClassFile.ClassDecl.parse_of_reads reads, same.name, ?_⟩
  intro q
  obtain ⟨last, initializes, values⟩ := exists_values_of_cut q distinct cutting
  have program := Program.ofFile_eq same (heldPackageId config.sharedId q)
  have named : file.thisClass = Name.inner outer type := same.name
  refine ⟨last, ?_, ?_⟩
  · rw [program, named]
    exact initializes
  · have read := List.forall₂_map_left_iff.mp same.fields
    have both := (List.forall₂_and_left symbols file.fields).mpr ⟨values, read⟩
    refine both.imp ?_
    rintro symbol member ⟨value, found⟩
    have declared := symbol.declaredAs_declare config
    refine ⟨found.name, found.descriptor, ?_, ?_⟩
    · rw [found.access]
      exact declared.static
    · rw [program, named, found.name, found.descriptor]
      exact value

/-- Whether a class file, once it is initialized, has the values that some entries declare for a
type: a static field for each name, with the type and the value of the first entry of that name. -/
structure Shows (file : ClassFile) (type : ResourceType) (entries : List SymbolFile.Entry)
    (shared : Option SharedId) : Prop where
  static : ∀ field ∈ file.fields, isStatic field.access = true
  distinct : (file.fields.map Member.name).Nodup
  names : ∀ name, name ∈ file.fields.map Member.name ↔
    ∃ entry ∈ entries, entry.type = type ∧ entry.name = name
  values : ∀ q, ∃ last,
    Initializes (Program.ofFile file (heldPackageId shared q)) file.thisClass last ∧
      ∀ field ∈ file.fields, ∃ entry,
        SymbolFile.firstNamed? entries type field.name = some entry ∧
          field.descriptor = (entry.symbol none).descriptor ∧
          last.value? (Program.ofFile file (heldPackageId shared q))
              ⟨file.thisClass, field.name, field.descriptor⟩ =
            some (entry.value.rebased shared q)

private theorem shows_of_holds {file : ClassFile} {type : ResourceType} {symbols : List Symbol}
    {entries : List SymbolFile.Entry} {shared : Option SharedId}
    (held : ∀ q, ∃ last,
      Initializes (Program.ofFile file (heldPackageId shared q)) file.thisClass last ∧
        List.Forall₂ (file.Holds shared q last) (firsts symbols) file.fields)
    (same : ∀ name, (symbols.find? fun symbol => ResourceField.name symbol == name).map
      Symbol.value = (SymbolFile.firstNamed? entries type name).map SymbolFile.Entry.value) :
    Shows file type entries shared := by
  -- The declarations do not depend on the package id, so any one will do for them.
  obtain ⟨last, -, holds⟩ := held 0
  have names : file.fields.map Member.name = (firsts symbols).map Symbol.name :=
    map_eq_of_forall₂ holds fun _ _ found => found.name
  have distinct : ((firsts symbols).map Symbol.name).Nodup := nodup_names_firsts symbols
  refine ⟨?_, names ▸ distinct, ?_, ?_⟩
  · intro field member
    obtain ⟨symbol, -, found⟩ := exists_of_mem_forall₂ holds member
    exact found.static
  · intro name
    have known := congrArg Option.isSome (same name)
    rw [← find?_firsts, Option.isSome_map, Option.isSome_map, Bool.eq_iff_iff, List.find?_isSome,
      SymbolFile.firstNamed?, List.find?_isSome] at known
    simp only [Bool.and_eq_true, beq_iff_eq] at known
    rw [names, List.mem_map]
    exact known
  · intro q
    obtain ⟨last, initializes, holds⟩ := held q
    refine ⟨last, initializes, ?_⟩
    intro field member
    obtain ⟨symbol, inside, found⟩ := exists_of_mem_forall₂ holds member
    have first := same (ResourceField.name symbol)
    rw [find?_of_mem_firsts inside, Option.map_some, eq_comm, Option.map_eq_some_iff] at first
    obtain ⟨entry, listed, value⟩ := first
    refine ⟨entry, found.name ▸ listed, ?_, value ▸ found.value⟩
    rw [found.descriptor, Symbol.descriptor, Symbol.descriptor, ← value]
    rfl

private theorem ofType_merged_ne_nil {tables : List (FieldTable Symbol)}
    {entries : List SymbolFile.Entry} {type : ResourceType}
    (same : ∀ name, ((tables.flatMap fun table => table.ofType type).find? fun symbol =>
        ResourceField.name symbol == name).map Symbol.value =
      (SymbolFile.firstNamed? entries type name).map SymbolFile.Entry.value)
    {entry : SymbolFile.Entry} (member : entry ∈ entries) (typed : entry.type = type) :
    (tables.foldl .merge .empty : FieldTable Symbol).ofType type ≠ [] := by
  rw [FieldTable.ofType_foldl_merge]
  intro none_left
  have known := congrArg Option.isSome (same entry.name)
  rw [← find?_firsts, none_left, Option.isSome_map, Option.isSome_map, SymbolFile.firstNamed?,
    List.find?_nil, Option.isSome_none, eq_comm, Option.isSome_eq_false_iff,
    Option.isNone_iff_eq_none, List.find?_eq_none] at known
  have never := known entry member
  simp [typed] at never

/-- When all symbol files are accepted and the generation of their merged symbols succeeds, the
class of each resource type that a file declares is on the disk, is read back, and, once it is
initialized, shows the first declaration of each name. -/
theorem generate_shows {builder finished : Builder} {package : String} {count : Nat}
    {sources : List (String × Option String)} {tables : List (FieldTable Symbol)}
    {disk later : Files.Disk}
    (parsed : sources.mapM (fun source => SymbolFile.parse source.1 source.2) = .ok tables)
    (done : runOn (builder.generate package (tables.foldl .merge .empty)) disk =
      (.ok (count, finished), later)) :
    ∃ declared,
      List.Forall₂ (fun source entries => SymbolFile.entries source.1 = .ok entries)
        sources declared ∧
      ∀ type, (∃ entry ∈ declared.flatten, entry.type = type) →
        ∃ bytes file,
          later.read (innerPath builder.outDir package type) = .ok bytes ∧
            ClassFile.parse bytes = .ok file ∧
              file.thisClass = Name.inner (Name.outer package) type ∧
                Shows file type declared.flatten builder.config.sharedId := by
  obtain ⟨declared, read, same⟩ := SymbolFile.exists_entries_of_mapM parsed
  refine ⟨declared, read, ?_⟩
  rintro type ⟨entry, member, typed⟩
  have some_field := ofType_merged_ne_nil (same type) member typed
  obtain ⟨decl, bytes, made, written, found⟩ :=
    exists_inner_of_generate done (FieldTable.mem_toList _ type some_field)
  rw [FieldTable.ofType_foldl_merge] at made
  obtain ⟨file, parsed_back, named, held⟩ :=
    innerClass_readBack made (nodup_names_firsts _) written
  exact ⟨bytes, file, found, parsed_back, named, shows_of_holds held (same type)⟩

/-- Two files that declare the same symbol, the first one with a value that a shared id owns. -/
def sampleSources : List (String × Option String) :=
  [("int id one 0x7f010001", some "lib"), ("int id one 7", none)]

/-- A builder that has written the class of the package id. -/
def sampleBuilder : Builder :=
  { outDir := "", config := ownedConfig, sharedIdWritten := true }

def sampleSymbol : Symbol :=
  ⟨"one", .int 0x7f010001, some "lib"⟩

def sampleClass : ClassFile.ClassDecl :=
  innerClassOf "R" .id [sampleSymbol] ownedConfig [⟨12, [sampleSymbol]⟩]

private theorem sampleClass_encoded : ∃ bytes, sampleClass.toBytes = .ok bytes := by
  have fits : ∀ block ∈ [(⟨12, [sampleSymbol]⟩ : Block Symbol)],
      block.Fits (prologueSize ownedConfig.sharedId.isSome)
        (Symbol.maxCodeSize ownedConfig.sharedId.isSome) := by
    intro block member
    rw [List.mem_singleton.mp member]
    exact ⟨List.cons_ne_nil _ _, rfl, by decide⟩
  have writable := writable_innerClassOf "R" .id [sampleSymbol] ownedConfig fits
  exact ClassFile.ClassDecl.exists_toBytes rfl writable (by decide +kernel) (by decide +kernel)

private theorem sampleOuter_encoded :
    ∃ bytes, (outerClass "R" ownedConfig [.id]).toBytes = .ok bytes := by
  have writable : ∀ method ∈ (outerClass "R" ownedConfig [.id]).methods, method.Writable := by
    intro method member
    rw [List.mem_singleton.mp member]
    exact writable_constructor
  exact ClassFile.ClassDecl.exists_toBytes rfl writable (by decide) (by decide)

private theorem sample_parsed :
    ∃ tables,
      sampleSources.mapM (fun source => SymbolFile.parse source.1 source.2) = .ok tables ∧
        tables.foldl .merge .empty = FieldTable.empty.push .id sampleSymbol := by
  refine ⟨[FieldTable.empty.push .id sampleSymbol,
    FieldTable.empty.push .id ⟨"one", .int 7, none⟩], rfl, ?_⟩
  have known : (FieldTable.empty.push .id sampleSymbol).contains .id "one" = true :=
    (FieldTable.contains_iff _ .id "one").mpr
      ⟨sampleSymbol, List.mem_singleton_self sampleSymbol, rfl⟩
  exact if_pos known

theorem sample_generated :
    ∃ later,
      runOn (sampleBuilder.generate "" (FieldTable.empty.push .id sampleSymbol)) Disk.empty =
        (.ok (1, sampleBuilder), later) := by
  have free : ∀ name, Disk.empty.node? [name] = none := by
    intro name
    simp [Disk.node?, Disk.empty]
  have outer_path : outerPath "" "" = "R.class" := by decide
  have inner_path : innerPath "" "" .id = "R$id.class" := by decide
  have declared : (sampleBuilder.innerFile "" (.id, [sampleSymbol])).decl = .ok sampleClass := rfl
  obtain ⟨_, middle, outer, kept⟩ :=
    PlannedFile.exists_writes_below_root (sampleBuilder.outerFile "" [.id]) rfl rfl
      sampleOuter_encoded outer_path (by decide) (by decide) (by decide) (free "R.class")
  obtain ⟨_, later, inner, -⟩ :=
    PlannedFile.exists_writes_below_root (sampleBuilder.innerFile "" (.id, [sampleSymbol]))
      rfl declared sampleClass_encoded inner_path (by decide) (by decide) (by decide)
      (by rw [kept _ (by decide), free])
  exact ⟨later, runOn_generate_of_writesAll rfl (.cons outer (.cons inner .nil))⟩

/-- The class on the disk has the value of the first file, moved with the package id. -/
theorem generate_shows_moved :
    ∃ tables result later bytes file last,
      sampleSources.mapM (fun source => SymbolFile.parse source.1 source.2) = .ok tables ∧
        runOn (sampleBuilder.generate "" (tables.foldl .merge .empty)) Disk.empty =
          (.ok result, later) ∧
        later.read "R$id.class" = .ok bytes ∧ ClassFile.parse bytes = .ok file ∧
        Initializes (Program.ofFile file (heldPackageId ownedConfig.sharedId 0x02000000))
          file.thisClass last ∧
        last.value? (Program.ofFile file (heldPackageId ownedConfig.sharedId 0x02000000))
          ⟨file.thisClass, "one", "I"⟩ = some (.int 0x02010001) := by
  obtain ⟨tables, parsed, merged⟩ := sample_parsed
  obtain ⟨later, generated⟩ := sample_generated
  rw [← merged] at generated
  obtain ⟨declared, read, shown⟩ := generate_shows parsed generated
  let first : SymbolFile.Entry := ⟨1, .id, "one", .int 0x7f010001⟩
  have listed : declared = [[first], [⟨1, .id, "one", .int 7⟩]] := by
    obtain ⟨found, others, entered, entered_later, rfl⟩ := List.forall₂_cons_left_iff.mp read
    obtain ⟨last, _, entered_last, nothing, rfl⟩ := List.forall₂_cons_left_iff.mp entered_later
    have found_eq : .ok [first] = Except.ok found := entered
    have last_eq : .ok [⟨1, .id, "one", .int 7⟩] = Except.ok last := entered_last
    rw [List.forall₂_nil_left_iff.mp nothing, ← Except.ok.inj found_eq, ← Except.ok.inj last_eq]
  rw [listed] at shown
  obtain ⟨bytes, file, found, parsed_back, -, shows⟩ := shown .id ⟨first, List.mem_cons_self, rfl⟩
  obtain ⟨last, initializes, values⟩ := shows.values 0x02000000
  obtain ⟨field, member, named⟩ := List.mem_map.mp
    ((shows.names "one").mpr ⟨first, List.mem_cons_self, rfl, rfl⟩)
  obtain ⟨entry, first_named, typed, value⟩ := values field member
  have only : entry = first := by
    rw [named] at first_named
    exact (Option.some.inj first_named).symm
  rw [only] at typed value
  have inner_path : innerPath sampleBuilder.outDir "" .id = "R$id.class" := by decide
  rw [inner_path] at found
  refine ⟨tables, _, later, bytes, file, last, parsed, generated, found, parsed_back, initializes,
    ?_⟩
  rw [named, typed] at value
  exact value

end Generation

end ResourceClasses
