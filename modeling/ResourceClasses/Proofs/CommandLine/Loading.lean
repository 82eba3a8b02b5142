import ResourceClasses.CommandLine.Execute
import ResourceClasses.Proofs.Files.Disk
import ResourceClasses.Proofs.SymbolFile.Concatenation

/-!
Loading symbol files: of the symbols that the files declare, taken in the order of the files, the
first one of each type and name is kept, and the first file that is no symbol file ends it.
-/

set_option autoImplicit false

namespace ResourceClasses.CommandLine

open Files (Disk FileStore runOn runOn_bind)
open SymbolFile (Holds typedSymbols)

/-- The text of the content of a file, if it is one. -/
def textOf? (content : List UInt8) : Option String :=
  String.fromUTF8? (ByteArray.mk content.toArray)

/-- Whether there is a file at a path whose content is a text. -/
def HasText (disk : Disk) (path text : String) : Prop :=
  ∃ content, disk.read path = .ok content ∧ textOf? content = some text

/-- Whether a symbol file can be read and is accepted. -/
def Accepted (disk : Disk) (source : SymbolSource) : Prop :=
  ∃ text table, HasText disk source.path text ∧
    SymbolFile.parse text source.label = .ok table

/-- Whether a symbol file can be read and is accepted, and declares some symbols, each with the
label of the file. -/
def Declares (disk : Disk) (source : SymbolSource) (declared : List (ResourceType × Symbol)) :
    Prop :=
  ∃ text table entries, HasText disk source.path text ∧
    SymbolFile.parse text source.label = .ok table ∧ Holds text entries ∧
      declared = typedSymbols source.label entries

/-- Why a symbol file cannot be loaded. -/
inductive Fails (disk : Disk) (source : SymbolSource) : CommandError → Prop
  | unread {reason : Files.FileError} (failed : disk.read source.path = .error reason) :
      Fails disk source (.read source.path reason)
  | noText {content : List UInt8} (read : disk.read source.path = .ok content)
      (invalid : textOf? content = none) : Fails disk source (.read source.path .invalidText)
  | refused {text : String} {reason : SymbolFileError} (found : HasText disk source.path text)
      (failed : SymbolFile.parse text source.label = .error reason) :
      Fails disk source (.symbols source.path reason)

section

variable {disk : Disk} {source : SymbolSource} {before : List SymbolSource}
  {declared : List (ResourceType × Symbol)} {e : CommandError}

theorem HasText.unique {path text other : String} (found : HasText disk path text)
    (again : HasText disk path other) : text = other := by
  obtain ⟨content, read, decoded⟩ := found
  obtain ⟨content', read', decoded'⟩ := again
  obtain rfl := Except.ok.inj (read.symm.trans read')
  exact Option.some.inj (decoded.symm.trans decoded')

/-- A symbol file declares one list of symbols. -/
theorem Declares.unique {others : List (ResourceType × Symbol)}
    (declares : Declares disk source declared) (again : Declares disk source others) :
    declared = others := by
  obtain ⟨text, -, entries, found, -, holds, rfl⟩ := declares
  obtain ⟨text', -, entries', found', -, holds', rfl⟩ := again
  obtain rfl := found.unique found'
  have listed := SymbolFile.entries_eq_ok_iff.mpr holds
  rw [SymbolFile.entries_eq_ok_iff.mpr holds'] at listed
  rw [Except.ok.inj listed]

/-- A symbol file that is accepted declares symbols. -/
theorem Accepted.exists_declares (accepted : Accepted disk source) :
    ∃ declared, Declares disk source declared := by
  obtain ⟨text, table, found, parsed⟩ := accepted
  obtain ⟨entries, holds⟩ := SymbolFile.exists_holds_of_parse parsed
  exact ⟨_, text, table, entries, found, parsed, holds, rfl⟩

theorem Declares.accepted (declares : Declares disk source declared) : Accepted disk source := by
  obtain ⟨text, table, -, found, parsed, -, -⟩ := declares
  exact ⟨text, table, found, parsed⟩

/-- Every symbol file is accepted or cannot be loaded. -/
theorem accepted_or_fails (disk : Disk) (source : SymbolSource) :
    Accepted disk source ∨ ∃ e, Fails disk source e := by
  cases read : disk.read source.path with
  | error reason => exact .inr ⟨_, .unread read⟩
  | ok content =>
    cases decoded : textOf? content with
    | none => exact .inr ⟨_, .noText read decoded⟩
    | some text =>
      have found : HasText disk source.path text := ⟨content, read, decoded⟩
      cases parsed : SymbolFile.parse text source.label with
      | error reason => exact .inr ⟨_, .refused found parsed⟩
      | ok table => exact .inl ⟨text, table, found, parsed⟩

private theorem runOn_readContent (path : String) (disk : Disk) :
    runOn (readContent path) disk = ((disk.read path).mapError (.read path), disk) := by
  have stepped : runOn (ε := CommandError) (liftM (FileStore.contents path : StateM Disk _)) disk =
      (.ok (disk.read path), disk) := rfl
  rw [readContent, runOn_bind, stepped]
  cases disk.read path <;> rfl

private theorem runOn_loadSymbolFile_of_hasText {text : String}
    (found : HasText disk source.path text) :
    runOn (loadSymbolFile source) disk =
      ((SymbolFile.parse text source.label).mapError (.symbols source.path), disk) := by
  obtain ⟨content, read, decoded⟩ := found
  unfold textOf? at decoded
  rw [loadSymbolFile, runOn_bind, runOn_readContent, read]
  simp only [Except.mapError, decoded]
  cases SymbolFile.parse text source.label <;> rfl

private theorem runOn_loadSymbolFile_of_declares (declares : Declares disk source declared) :
    runOn (loadSymbolFile source) disk = (.ok (FieldTable.empty.pushAll declared), disk) := by
  obtain ⟨text, table, entries, found, parsed, holds, rfl⟩ := declares
  rw [runOn_loadSymbolFile_of_hasText found, parsed]
  rw [SymbolFile.parse_of_holds holds, SymbolFile.addEntries_eq_ok_iff] at parsed
  rw [parsed.2]
  rfl

private theorem runOn_loadSymbolFile_of_fails (fails : Fails disk source e) :
    runOn (loadSymbolFile source) disk = (.error e, disk) := by
  cases fails with
  | unread failed =>
    rw [loadSymbolFile, runOn_bind, runOn_readContent, failed]
    rfl
  | noText read invalid =>
    unfold textOf? at invalid
    rw [loadSymbolFile, runOn_bind, runOn_readContent, read]
    simp only [Except.mapError, invalid]
    rfl
  | refused found failed =>
    rw [runOn_loadSymbolFile_of_hasText found, failed]
    rfl

/-- Loads symbol files after some whose symbols are in a table. -/
private def loadAfter (table : FieldTable Symbol) (sources : List SymbolSource) :
    ExceptT CommandError (StateM Disk) (FieldTable Symbol) :=
  sources.foldlM (fun table source => do pure (table.merge (← loadSymbolFile source))) table

private theorem runOn_loadAfter_cons (table : FieldTable Symbol) (source : SymbolSource)
    (rest : List SymbolSource) (disk : Disk) :
    runOn (loadAfter table (source :: rest)) disk =
      match runOn (loadSymbolFile source) disk with
      | (.ok added, middle) => runOn (loadAfter (table.merge added) rest) middle
      | (.error e, middle) => (.error e, middle) := by
  rw [loadAfter, List.foldlM_cons, bind_assoc, runOn_bind]
  simp only [pure_bind]
  rcases runOn (loadSymbolFile source) disk with ⟨e | added, middle⟩ <;> rfl

/-- Files that declare symbols are loaded by adding those that are new, and the others follow. -/
private theorem runOn_loadAfter_append {lists : List (List (ResourceType × Symbol))}
    (each : List.Forall₂ (Declares disk) before lists) (after : List SymbolSource)
    (table : FieldTable Symbol) :
    runOn (loadAfter table (before ++ after)) disk =
      runOn (loadAfter (lists.flatten.foldl FieldTable.addNew table) after) disk := by
  induction each generalizing table with
  | nil => rfl
  | cons declares _ ih =>
    rw [List.cons_append, runOn_loadAfter_cons, runOn_loadSymbolFile_of_declares declares]
    dsimp only
    rw [ih, FieldTable.merge_pushAll_empty, List.flatten_cons, List.foldl_append]

/-- When all files are accepted, the first of each type and name among the symbols that they declare
are loaded. Otherwise the first file that cannot be loaded decides the error. The disk stays as it
is. -/
theorem loadSymbols_firstWins (disk : Disk) (sources : List SymbolSource) :
    ((∀ source ∈ sources, Accepted disk source) →
      ∃ lists table, List.Forall₂ (Declares disk) sources lists ∧
        runOn (loadSymbols sources) disk = (.ok table, disk) ∧ table.FirstWins lists.flatten) ∧
    ∀ before source after e, sources = before ++ source :: after →
      (∀ other ∈ before, Accepted disk other) → Fails disk source e →
        runOn (loadSymbols sources) disk = (.error e, disk) := by
  constructor
  · intro accepted
    obtain ⟨lists, each⟩ := exists_forall₂ fun source member =>
      (accepted source member).exists_declares
    have loaded := runOn_loadAfter_append each [] .empty
    rw [List.append_nil] at loaded
    exact ⟨lists, _, each, loaded, FieldTable.firstWins_foldl_addNew lists.flatten⟩
  · rintro before source after e rfl accepted fails
    obtain ⟨lists, each⟩ := exists_forall₂ fun other member =>
      (accepted other member).exists_declares
    have loaded := runOn_loadAfter_append each (source :: after) .empty
    rw [runOn_loadAfter_cons, runOn_loadSymbolFile_of_fails fails] at loaded
    exact loaded

/-- A disk with two files, which both declare `id/one`. -/
def sharedDisk : Disk :=
  (Disk.empty.put ["app"] (.file "int id one 1".toUTF8.data.toList)).put ["lib"]
    (.file "int color two 2\nint id one 7".toUTF8.data.toList)

private theorem node?_sharedDisk (name : String) :
    sharedDisk.node? [name] =
      if name = "lib" then some (.file "int color two 2\nint id one 7".toUTF8.data.toList)
      else if name = "app" then some (.file "int id one 1".toUTF8.data.toList) else none := by
  rw [sharedDisk, Disk.node?_put _ _ _ _ rfl, Disk.node?_put _ _ _ _ rfl]
  simp [Disk.node?, Disk.empty]

private theorem textOf?_toUTF8 (text : String) : textOf? text.toUTF8.data.toList = some text := by
  simp only [textOf?, String.fromUTF8?, Array.toArray_toList]
  exact dif_pos text.isValidUTF8

/-- A file below the root that was written from a text has it. -/
private theorem hasText_of_node? {name text : String} (steps : Path.steps name = [name])
    (step : name ≠ Path.stay ∧ name ≠ Path.back) (short : name.utf8ByteSize ≤ Disk.maxNameSize)
    (plain : name.endsWith '/' = false)
    (node : disk.node? [name] = some (.file text.toUTF8.data.toList)) :
    HasText disk name text := by
  refine ⟨text.toUTF8.data.toList, ?_, textOf?_toUTF8 text⟩
  rw [Disk.read_below_root steps step short, node]
  dsimp only
  rw [plain]
  rfl

private theorem declares_of_entries {text : String} {entries : List SymbolFile.Entry}
    (found : HasText disk source.path text) (listed : SymbolFile.entries text = .ok entries)
    {table : FieldTable Symbol}
    (added : SymbolFile.addEntries source.label .empty entries = .ok table) :
    Declares disk source (typedSymbols source.label entries) := by
  have holds := SymbolFile.entries_eq_ok_iff.mp listed
  refine ⟨text, table, entries, found, ?_, holds, rfl⟩
  rw [SymbolFile.parse_of_holds holds, added]

private theorem app_declares :
    Declares sharedDisk ⟨none, "app"⟩ [(.id, ⟨"one", .int 1, none⟩)] := by
  have found : HasText sharedDisk "app" "int id one 1" :=
    hasText_of_node? (by decide) (by decide) (by decide) (by decide +kernel)
      (node?_sharedDisk "app")
  have listed : SymbolFile.entries "int id one 1" = .ok [⟨1, .id, "one", .int 1⟩] := by
    decide +kernel
  exact @declares_of_entries _ ⟨none, "app"⟩ _ _ found listed _ rfl

private theorem lib_declares :
    Declares sharedDisk ⟨some "//lib", "lib"⟩
      [(.color, ⟨"two", .int 2, some "//lib"⟩), (.id, ⟨"one", .int 7, some "//lib"⟩)] := by
  have found : HasText sharedDisk "lib" "int color two 2\nint id one 7" :=
    hasText_of_node? (by decide) (by decide) (by decide) (by decide +kernel)
      (node?_sharedDisk "lib")
  have listed : SymbolFile.entries "int color two 2\nint id one 7" =
      .ok [⟨1, .color, "two", .int 2⟩, ⟨2, .id, "one", .int 7⟩] := by decide +kernel
  exact @declares_of_entries _ ⟨some "//lib", "lib"⟩ _ _ found listed _ rfl

/-- Of two files the first one decides `id/one`, and a file that is missing is an error. -/
theorem loadSymbols_firstWins_shared :
    (∃ table : FieldTable Symbol,
      runOn (loadSymbols [⟨none, "app"⟩, ⟨some "//lib", "lib"⟩]) sharedDisk =
          (.ok table, sharedDisk) ∧
        table.FirstWins [(.id, ⟨"one", .int 1, none⟩), (.color, ⟨"two", .int 2, some "//lib"⟩),
          (.id, ⟨"one", .int 7, some "//lib"⟩)]) ∧
      runOn (loadSymbols [⟨none, "app"⟩, ⟨none, "none"⟩, ⟨some "//lib", "lib"⟩]) sharedDisk =
        (.error (.read "none" .notFound), sharedDisk) := by
  constructor
  · obtain ⟨lists, table, each, loaded, wins⟩ :=
      (loadSymbols_firstWins sharedDisk [⟨none, "app"⟩, ⟨some "//lib", "lib"⟩]).1
        (by simp [app_declares.accepted, lib_declares.accepted])
    cases each with
    | cons first later =>
      cases later with
      | cons second nothing =>
        cases nothing
        obtain rfl := first.unique app_declares
        obtain rfl := second.unique lib_declares
        exact ⟨table, loaded, wins⟩
  · refine (loadSymbols_firstWins sharedDisk _).2 [⟨none, "app"⟩] ⟨none, "none"⟩ _ _ rfl ?_ ?_
    · exact List.forall_mem_singleton.mpr app_declares.accepted
    · refine .unread ?_
      rw [Disk.read_below_root (by decide) (by decide) (by decide), node?_sharedDisk]
      rfl

end

end ResourceClasses.CommandLine
