import Mathlib.Data.List.Perm.Subperm
import Mathlib.Data.Nat.Digits.Defs
import ResourceClasses.Proofs.Generation.Size
import ResourceClasses.Proofs.Text.ModifiedUtf8

/-!
Room in a pool: a class of a resource type asks for at most five entries for each field, one for
each element of an array and three for each method of its chain, besides a few that do not grow with
it. So a class of short names is written unless it has too many of those.
-/

set_option autoImplicit false

namespace ResourceClasses

open ClassFile

/-- The number of elements of a symbol that is an array. -/
def Symbol.elementCount (symbol : Symbol) : Nat :=
  match symbol.value with
  | .int _ => 0
  | .array values => values.length

/-- Whether a text can be a constant: its bytes can be counted. -/
def Text.IsShort (text : String) : Prop :=
  (Text.ModifiedUtf8.encode text).length ≤ 65535

instance (text : String) : Decidable (Text.IsShort text) :=
  inferInstanceAs (Decidable ((Text.ModifiedUtf8.encode text).length ≤ 65535))

theorem Text.IsShort.of_append {first second : String} (short : IsShort (first ++ second)) :
    IsShort first := by
  rw [IsShort, ModifiedUtf8.encode_append, List.length_append] at short
  exact Nat.le_trans (Nat.le_add_right _ _) short

namespace ResourceField

/-- The number that code pushes for a value: its distance to the package id if it is owned. -/
def pushed (shared : Option SharedId) (value : Int32) : Int32 :=
  match shared with
  | some shared => if shared.owns value then shared.offset value else value
  | none => value

private theorem entry_pushInt {value : Int32} {entry : Entry}
    (asked : entry ∈ (Insn.pushInt value).entries) : entry = .integer value := by
  rw [Insn.entries] at asked
  split at asked
  · contradiction
  · exact List.mem_singleton.mp asked

private theorem entry_pushValue {shared : Option SharedId} {value : Int32} {entry : Entry}
    (asked : entry ∈ (pushValue shared value).flatMap Insn.entries) :
    entry = .integer (pushed shared value) := by
  have plain : ∀ number, entry ∈ [Insn.pushInt number].flatMap Insn.entries →
      entry = .integer number := by
    intro number member
    rw [List.flatMap_singleton] at member
    exact entry_pushInt member
  unfold pushValue at asked
  unfold pushed
  cases shared with
  | none => exact plain value asked
  | some found =>
    dsimp only at asked ⊢
    split at asked
    · rename_i owned
      rw [if_pos owned]
      apply plain
      simpa [Insn.entries] using asked
    · rename_i foreign
      rw [if_neg foreign]
      exact plain value asked

end ResourceField

namespace Symbol

/-- The ints that the code of a symbol pushes for its value. -/
def pushed (shared : Option SharedId) (symbol : Symbol) : List Int32 :=
  match symbol.value with
  | .int value => [ResourceField.pushed shared value]
  | .array values => values.map (ResourceField.pushed shared)

/-- The entries that a class asks for because of a symbol: those of its name, its label, its field
and its numbers. -/
def entries (className : String) (shared : Option SharedId) (symbol : Symbol) : List Entry :=
  [.utf8 symbol.name, .nameAndType symbol.name symbol.descriptor,
      .fieldRef (symbol.field className)] ++
    symbol.dependency.toList.map Entry.utf8 ++ (symbol.pushed shared).map Entry.integer

theorem length_entries_le (className : String) (shared : Option SharedId) (symbol : Symbol) :
    (symbol.entries className shared).length ≤ 5 + symbol.elementCount := by
  obtain ⟨name, value, dependency⟩ := symbol
  have label : dependency.toList.length ≤ 1 := by cases dependency <;> simp
  cases value <;> simp only [entries, pushed, elementCount, List.length_append, List.length_map,
    List.length_cons, List.length_nil] <;> omega

/-- An index that two bytes can push is no entry. -/
private theorem entries_pushIndex {index : Nat} (small : index < 32768) :
    (Insn.pushInt (Int32.ofNat index)).entries = [] := by
  have value : (Int32.ofNat index).toInt = index := Int32.toInt_ofNat_of_lt (by omega)
  rw [Insn.entries, value, if_pos (by omega)]

private theorem entry_storeElements {shared : Option SharedId} {elements : List (Int32 × Nat)}
    (small : ∀ element ∈ elements, element.2 < 32768) {entry : Entry}
    (asked : entry ∈ (elements.flatMap (storeElement shared)).flatMap Insn.entries) :
    ∃ element ∈ elements, entry = .integer (ResourceField.pushed shared element.1) := by
  obtain ⟨insn, stored, asked⟩ := List.mem_flatMap.mp asked
  obtain ⟨element, inside, member⟩ := List.mem_flatMap.mp stored
  refine ⟨element, inside, ?_⟩
  simp only [storeElement, List.mem_cons, List.mem_append, List.not_mem_nil, or_false] at member
  rcases member with rfl | rfl | pushing | rfl
  · contradiction
  · rw [entries_pushIndex (small element inside)] at asked
    contradiction
  · exact ResourceField.entry_pushValue (List.mem_flatMap.mpr ⟨insn, pushing, asked⟩)
  · contradiction

private theorem entry_push {shared : Option SharedId} {symbol : Symbol}
    (small : symbol.elementCount < 32768) {entry : Entry}
    (asked : entry ∈ (push shared symbol.value).flatMap Insn.entries) :
    ∃ number ∈ symbol.pushed shared, entry = .integer number := by
  obtain ⟨name, value, dependency⟩ := symbol
  cases value with
  | int n => exact ⟨_, List.mem_singleton_self _, ResourceField.entry_pushValue asked⟩
  | array values =>
    have length : values.length < 32768 := small
    rw [push, List.flatMap_cons, List.flatMap_cons, entries_pushIndex length] at asked
    have positions : ∀ element ∈ values.zipIdx, element.2 < 32768 := by
      intro element member
      have inside := (List.mem_zipIdx member).2.1
      omega
    obtain ⟨element, member, rfl⟩ := entry_storeElements positions asked
    refine ⟨_, List.mem_map.mpr ⟨element.1, ?_, rfl⟩, rfl⟩
    exact List.fst_mem_of_mem_zipIdx member

/-- The code of a symbol asks for the entries of the symbol, and for its class and descriptor. -/
theorem entry_assign {className : String} {shared : Option SharedId} {symbol : Symbol}
    (small : symbol.elementCount < 32768) {entry : Entry}
    (asked : entry ∈ (symbol.assign className shared).flatMap Insn.entries) :
    entry ∈ symbol.entries className shared ∨ entry ∈ Entry.ofClass className ∨
      entry = .utf8 symbol.descriptor := by
  rw [assign, List.flatMap_append, List.flatMap_singleton, List.mem_append] at asked
  rcases asked with pushing | storing
  · obtain ⟨number, member, rfl⟩ := entry_push small pushing
    exact .inl (List.mem_append_right _ (List.mem_map_of_mem member))
  · simp only [Insn.entries, Entry.ofField, Entry.ofMember, List.mem_append, List.mem_cons,
      List.not_mem_nil, or_false] at storing
    rcases storing with (owner | rfl | rfl | rfl) | rfl
    · exact .inr (.inl owner)
    · exact .inl (by simp [entries])
    · exact .inr (.inr rfl)
    · exact .inl (by simp [entries])
    · exact .inl (by simp [entries, field])

/-- The names of the format that the declaration of a symbol can ask for. -/
def formatEntries : List Entry :=
  [.utf8 KnownAttribute.constantValue.name, .utf8 KnownAttribute.visibleAnnotations.name,
    .utf8 (ResourceField.provenance "").descriptor, .utf8 ResourceField.provenanceKey]

private theorem entry_constant {config : Config} {symbol : Symbol} {entry : Entry}
    (asked : entry ∈ constantEntries (symbol.constant? config)) :
    (∃ number ∈ symbol.pushed config.sharedId, entry = .integer number) ∨
      entry ∈ formatEntries := by
  obtain ⟨name, value, dependency⟩ := symbol
  cases value with
  | array values => contradiction
  | int n =>
    rw [constant?] at asked
    dsimp only at asked
    split at asked
    · rename_i kept
      have unmoved : config.sharedId = none := by
        rw [Bool.and_eq_true] at kept
        exact Option.isNone_iff_eq_none.mp kept.2
      simp only [constantEntries, List.mem_cons, List.not_mem_nil, or_false] at asked
      rcases asked with rfl | rfl
      · exact .inr (by simp [formatEntries])
      · exact .inl ⟨n, by rw [unmoved]; exact List.mem_singleton_self n, rfl⟩
    · contradiction

private theorem entry_annotations {config : Config} {symbol : Symbol} {entry : Entry}
    (asked : entry ∈ annotationEntries (symbol.declare config).annotations) :
    (∃ label ∈ symbol.dependency, entry = .utf8 label) ∨ entry ∈ formatEntries := by
  obtain ⟨name, value, dependency⟩ := symbol
  cases dependency with
  | none => contradiction
  | some label =>
    rw [declare] at asked
    dsimp only at asked
    split at asked
    · simp only [annotationEntries, ResourceField.provenance, List.isEmpty_cons, Bool.false_eq_true,
        if_false, List.flatMap_cons, List.flatMap_nil, elementEntries, List.mem_cons,
        List.mem_append, List.not_mem_nil, or_false] at asked
      rcases asked with rfl | rfl | rfl | rfl
      · exact .inr (by simp [formatEntries])
      · exact .inr (by simp [formatEntries, ResourceField.provenance])
      · exact .inr (by simp [formatEntries])
      · exact .inl ⟨label, rfl, rfl⟩
    · contradiction

/-- The declaration of a symbol asks for the entries of the symbol, its descriptor and names of the
format. -/
theorem entry_declare {className : String} {config : Config} {symbol : Symbol} {entry : Entry}
    (asked : entry ∈ (symbol.declare config).entries) :
    entry ∈ symbol.entries className config.sharedId ∨ entry = .utf8 symbol.descriptor ∨
      entry ∈ formatEntries := by
  simp only [FieldDecl.entries, List.mem_append, List.mem_cons, List.not_mem_nil, or_false] at asked
  rcases asked with ((rfl | rfl) | constant) | annotation
  · exact .inl (by simp [entries, declare])
  · exact .inr (.inl rfl)
  · rcases entry_constant constant with ⟨number, member, rfl⟩ | format
    · exact .inl (List.mem_append_right _ (List.mem_map_of_mem member))
    · exact .inr (.inr format)
  · rcases entry_annotations annotation with ⟨label, known, rfl⟩ | format
    · exact .inl (by simp [entries, Option.mem_def.mp known])
    · exact .inr (.inr format)

end Symbol

namespace Generation

/-- The entries that a class asks for because of the method at a position of its chain, which is
called by name. -/
def methodEntries (className : String) (ordinal : Nat) : List Entry :=
  [.utf8 (methodName ordinal), .nameAndType (methodName ordinal) "()V",
    .methodRef (methodRef className ordinal)]

/-- The entries that a class of a resource type can ask for whatever its symbols are. -/
def commonEntries (outer : String) (type : ResourceType) (shared : Option SharedId) : List Entry :=
  Entry.ofClass (Name.inner outer type) ++ Entry.ofClass outer ++
    Entry.ofMethod ⟨Name.objectClass, "<init>", "()V"⟩ ++
    shared.toList.flatMap (fun found => Entry.ofField found.field) ++ Symbol.formatEntries ++
    [.utf8 type.name, .utf8 "I", .utf8 "[I", .utf8 KnownAttribute.code.name,
      .utf8 KnownAttribute.sourceFile.name, .utf8 Name.sourceFile,
      .utf8 KnownAttribute.innerClasses.name]

/-- The entries that a class of a resource type can ask for, when its chain has some methods. -/
def innerClassEntries (outer : String) (type : ResourceType) (symbols : List Symbol)
    (shared : Option SharedId) (methods : Nat) : List Entry :=
  commonEntries outer type shared ++
    (symbols.flatMap (Symbol.entries (Name.inner outer type) shared) ++
      (List.range methods).flatMap (methodEntries (Name.inner outer type)))

section

variable {outer : String} {type : ResourceType} {symbols : List Symbol} {shared : Option SharedId}
  {methods : Nat}

theorem length_innerClassEntries_le :
    (innerClassEntries outer type symbols shared methods).length ≤
      27 + (5 * symbols.length + total (symbols.map Symbol.elementCount) + 3 * methods) := by
  have common : (commonEntries outer type shared).length ≤ 27 := by
    cases shared <;> exact Nat.le_of_ble_eq_true rfl
  have fields : (symbols.flatMap (Symbol.entries (Name.inner outer type) shared)).length ≤
      5 * symbols.length + total (symbols.map Symbol.elementCount) := by
    clear common
    induction symbols with
    | nil => exact Nat.le_refl 0
    | cons symbol rest ih =>
      have first := symbol.length_entries_le (Name.inner outer type) shared
      rw [List.flatMap_cons, List.length_append, List.map_cons, total_cons, List.length_cons]
      omega
  have chain : ((List.range methods).flatMap (methodEntries (Name.inner outer type))).length =
      3 * methods := by
    simp [List.length_flatMap, methodEntries, Nat.mul_comm]
  rw [innerClassEntries, List.length_append, List.length_append]
  omega

private theorem mem_of_common {entry : Entry} (listed : entry ∈ commonEntries outer type shared) :
    entry ∈ innerClassEntries outer type symbols shared methods :=
  List.mem_append_left _ listed

private theorem mem_of_symbol {symbol : Symbol} (member : symbol ∈ symbols) {entry : Entry}
    (listed : entry ∈ symbol.entries (Name.inner outer type) shared) :
    entry ∈ innerClassEntries outer type symbols shared methods :=
  List.mem_append_right _ (List.mem_append_left _ (List.mem_flatMap.mpr ⟨symbol, member, listed⟩))

private theorem mem_of_method {ordinal : Nat} (below : ordinal < methods) {entry : Entry}
    (listed : entry ∈ methodEntries (Name.inner outer type) ordinal) :
    entry ∈ innerClassEntries outer type symbols shared methods :=
  List.mem_append_right _ (List.mem_append_right _
    (List.mem_flatMap.mpr ⟨ordinal, List.mem_range.mpr below, listed⟩))

private theorem descriptor_mem (symbol : Symbol) :
    Entry.utf8 symbol.descriptor ∈ innerClassEntries outer type symbols shared methods := by
  apply mem_of_common
  cases value : symbol.value <;> simp [Symbol.descriptor, value, commonEntries]

private theorem format_mem {entry : Entry} (format : entry ∈ Symbol.formatEntries) :
    entry ∈ innerClassEntries outer type symbols shared methods :=
  mem_of_common (by simp [commonEntries, format])

private theorem className_mem {entry : Entry}
    (named : entry ∈ Entry.ofClass (Name.inner outer type)) :
    entry ∈ innerClassEntries outer type symbols shared methods :=
  mem_of_common (by simp [commonEntries, named])

/-- A method asks for the entries of its place in the chain, of its symbols, and of the method that
it calls. -/
private theorem entry_method {method : InitializerMethod Symbol}
    (place : method.ordinal < methods) (next : ∀ ordinal ∈ method.next, ordinal < methods)
    (known : ∀ symbol ∈ method.fields, symbol ∈ symbols ∧ symbol.elementCount < 32768)
    {entry : Entry} (asked : entry ∈ (method.declare (Name.inner outer type) shared).entries) :
    entry ∈ innerClassEntries outer type symbols shared methods := by
  simp only [MethodDecl.entries, InitializerMethod.declare, List.flatMap_append, List.mem_append,
    List.mem_cons, List.not_mem_nil, or_false] at asked
  rcases asked with (rfl | rfl | rfl) | starting | assigning | ending
  · exact mem_of_method place (by simp [methodEntries])
  · exact mem_of_common (by simp [commonEntries, Entry.ofMethod, Entry.ofMember])
  · exact mem_of_common (by simp [commonEntries])
  · cases shared with
    | none => contradiction
    | some found =>
      apply mem_of_common
      simp only [prologue, List.flatMap_cons, List.flatMap_nil, Insn.entries, List.append_nil]
        at starting
      simp [commonEntries, starting]
  · rw [List.flatMap_assoc] at assigning
    obtain ⟨symbol, member, assigning⟩ := List.mem_flatMap.mp assigning
    obtain ⟨inside, small⟩ := known symbol member
    rcases Symbol.entry_assign small assigning with own | named | rfl
    · exact mem_of_symbol inside own
    · exact className_mem named
    · exact descriptor_mem symbol
  · unfold tail at ending
    split at ending
    · rename_i ordinal called
      have below := next ordinal called
      simp only [List.flatMap_cons, List.flatMap_nil, Insn.entries, List.append_nil, Entry.ofMethod,
        Entry.ofMember, List.mem_append, List.mem_cons, List.not_mem_nil, or_false] at ending
      rcases ending with (named | rfl | rfl | rfl) | rfl
      · exact className_mem named
      · exact mem_of_method below (by simp [methodEntries, methodRef])
      · exact mem_of_common (by simp [commonEntries, Entry.ofMethod, Entry.ofMember, methodRef])
      · exact mem_of_method below (by simp [methodEntries, methodRef])
      · exact mem_of_method below (by simp [methodEntries])
    · contradiction

end

section

variable {outer directory : String} {type : ResourceType} {symbols : List Symbol}
  {config : Config} {decl : ClassDecl} {blocks : List (Block Symbol)}

/-- An array that fits into a method has only elements whose positions two bytes can push. -/
private theorem elementCount_lt_of_fits {prologue : Nat} {sharedId : Bool} {block : Block Symbol}
    (fits : block.Fits prologue (Symbol.maxCodeSize sharedId)) {symbol : Symbol}
    (member : symbol ∈ block.items) : symbol.elementCount < 32768 := by
  have size_le := fits.size_item_le member
  obtain ⟨name, value, dependency⟩ := symbol
  cases value with
  | int n => exact Nat.zero_lt_succ 32767
  | array values =>
    exact Nat.lt_of_le_of_lt (maxCodeSize_array_of_le size_le).1 (by decide)

private theorem constructor_common {shared : Option SharedId} {entry : Entry}
    (asked : entry ∈ Generation.constructor.entries) : entry ∈ commonEntries outer type shared := by
  simp only [MethodDecl.entries, Generation.constructor, List.flatMap_cons, List.flatMap_nil,
    Insn.entries, List.nil_append, List.append_nil, List.mem_append, List.mem_cons,
    List.not_mem_nil, or_false] at asked
  rcases asked with (rfl | rfl | rfl) | called
  · simp [commonEntries, Entry.ofMethod, Entry.ofMember]
  · simp [commonEntries, Entry.ofMethod, Entry.ofMember]
  · simp [commonEntries]
  · simp [commonEntries, called]

private theorem nested_common {shared : Option SharedId} {entry : Entry}
    (asked : entry ∈ innerEntries [innerEntry outer type]) :
    entry ∈ commonEntries outer type shared := by
  simp only [innerEntries, innerEntry, InnerClass.entries, List.isEmpty_cons, Bool.false_eq_true,
    if_false, List.flatMap_cons, List.flatMap_nil, Option.toList_some, List.map_cons, List.map_nil,
    List.append_nil, List.mem_cons, List.mem_append, List.not_mem_nil, or_false] at asked
  rcases asked with rfl | (own | around) | rfl
  · simp [commonEntries]
  · simp [commonEntries, own]
  · simp [commonEntries, around]
  · simp [commonEntries]

/-- A class of a resource type asks for nothing but the entries that are listed for it. -/
theorem entries_innerClassOf
    (cutting : cut (prologueSize config.sharedId.isSome)
      (ResourceField.maxCodeSize config.sharedId.isSome) (deferred config symbols) = .ok blocks) :
    (innerClassOf outer type symbols config blocks).entries ⊆
      innerClassEntries outer type symbols config.sharedId blocks.length := by
  obtain ⟨fits, items_eq⟩ := cut_fits (addable_symbols _ _) cutting
  intro entry asked
  simp only [ClassDecl.entries, innerClassOf, shell, List.mem_append] at asked
  rcases asked with (((((name | superName) | field) | method) | source) | inner) | annotation
  · exact className_mem name
  · exact mem_of_common (by simp [commonEntries, Entry.ofMethod, Entry.ofMember, superName])
  · obtain ⟨declared, member, asked⟩ := List.mem_flatMap.mp field
    obtain ⟨symbol, inside, rfl⟩ := List.mem_map.mp member
    rcases Symbol.entry_declare asked with own | rfl | format
    · exact mem_of_symbol inside own
    · exact descriptor_mem symbol
    · exact format_mem format
  · obtain ⟨declared, member, asked⟩ := List.mem_flatMap.mp method
    rcases List.mem_cons.mp member with rfl | chained
    · exact mem_of_common (constructor_common asked)
    · obtain ⟨planned, linked, rfl⟩ := List.mem_map.mp chained
      obtain ⟨place, next⟩ := ordinal_lt_of_mem_linkAfter linked
      obtain ⟨block, inside, -, fields_eq⟩ := exists_block_of_mem_linkAfter linked
      rw [Nat.zero_add] at place next
      refine entry_method place next ?_ asked
      intro symbol held
      rw [fields_eq] at held
      refine ⟨?_, elementCount_lt_of_fits (fits block inside) held⟩
      have assigned : symbol ∈ deferred config symbols :=
        items_eq ▸ List.mem_flatMap.mpr ⟨block, inside, held⟩
      exact List.mem_of_mem_filter assigned
  · exact mem_of_common (by
      rw [sourceEntries] at source
      simp only [List.mem_cons, List.not_mem_nil, or_false] at source
      rcases source with rfl | rfl <;> simp [commonEntries])
  · exact mem_of_common (nested_common inner)
  · contradiction

theorem isShort_methodName {ordinal : Nat} (few : ordinal ≤ 65535) :
    Text.IsShort (methodName ordinal) := by
  cases ordinal with
  | zero => decide
  | succ n =>
    have digits : (Nat.repr n).length ≤ 5 := Nat.repr_length n 5 (by decide) (by omega)
    have size := Text.ModifiedUtf8.length_encode_le (methodName (n + 1))
    have length : (methodName (n + 1)).length = 10 + (Nat.repr n).length :=
      String.length_append _ _
    unfold Text.IsShort
    omega

/-- The texts that a class of a resource type is given and that can be constants. -/
structure ShortTexts (outer : String) (type : ResourceType) (symbols : List Symbol)
    (shared : Option SharedId) : Prop where
  className : Text.IsShort (Name.inner outer type)
  sharedId : ∀ found ∈ shared, Text.IsShort found.internalName
  names : ∀ symbol ∈ symbols, Text.IsShort symbol.name
  labels : ∀ symbol ∈ symbols, ∀ label ∈ symbol.dependency, Text.IsShort label

private theorem textLength_ofClass {name : String} (short : Text.IsShort name) :
    ∀ entry ∈ Entry.ofClass name, entry.textLength ≤ maxCount :=
  List.forall_mem_cons.mpr ⟨short, List.forall_mem_singleton.mpr (Nat.zero_le _)⟩

private theorem textLength_ofField {ref : MemberRef} (owner : Text.IsShort ref.owner)
    (name : Text.IsShort ref.name) (descriptor : Text.IsShort ref.descriptor) :
    ∀ entry ∈ Entry.ofField ref, entry.textLength ≤ maxCount := by
  simp only [Entry.ofField, Entry.ofMember, List.forall_mem_append, List.forall_mem_cons]
  exact ⟨⟨textLength_ofClass owner, name, descriptor, Nat.zero_le _, by simp⟩, Nat.zero_le _,
    by simp⟩

private theorem textLength_common {shared : Option SharedId}
    (className : Text.IsShort (Name.inner outer type))
    (satellite : ∀ found ∈ shared, Text.IsShort found.internalName) :
    ∀ entry ∈ commonEntries outer type shared, entry.textLength ≤ maxCount := by
  have outerName : Text.IsShort outer := (className.of_append).of_append
  have typeName : Text.IsShort type.name := by
    cases type <;> decide
  have idField : ∀ entry ∈ shared.toList.flatMap (fun found => Entry.ofField found.field),
      entry.textLength ≤ maxCount := by
    cases shared with
    | none => exact fun _ never => absurd never List.not_mem_nil
    | some found =>
      rw [Option.toList_some, List.flatMap_singleton]
      exact textLength_ofField (satellite found rfl) (by decide : Text.IsShort SharedId.fieldName)
        (by decide : Text.IsShort "I")
  unfold commonEntries
  simp only [List.forall_mem_append, List.forall_mem_cons]
  refine ⟨⟨⟨⟨⟨textLength_ofClass className, textLength_ofClass outerName⟩, ?_⟩, idField⟩, ?_⟩,
    typeName, ?_⟩
  · decide
  · decide
  · decide

private theorem textLength_symbol {className : String} {shared : Option SharedId} {symbol : Symbol}
    (name : Text.IsShort symbol.name) (label : ∀ label ∈ symbol.dependency, Text.IsShort label) :
    ∀ entry ∈ symbol.entries className shared, entry.textLength ≤ maxCount := by
  intro entry listed
  simp only [Symbol.entries, List.mem_append, List.mem_cons, List.not_mem_nil, or_false,
    List.mem_map, Option.mem_toList] at listed
  rcases listed with ((rfl | rfl | rfl) | ⟨text, known, rfl⟩) | ⟨number, -, rfl⟩
  · exact name
  · exact Nat.zero_le _
  · exact Nat.zero_le _
  · exact label text known
  · exact Nat.zero_le _

private theorem textLength_method {className : String} {ordinal : Nat} (few : ordinal ≤ 65535) :
    ∀ entry ∈ methodEntries className ordinal, entry.textLength ≤ maxCount := by
  intro entry listed
  simp only [methodEntries, List.mem_cons, List.not_mem_nil, or_false] at listed
  rcases listed with rfl | rfl | rfl
  · exact isShort_methodName few
  · exact Nat.zero_le _
  · exact Nat.zero_le _

/-- The entries that are listed for a class can all be constants if the texts that it is given
can. -/
theorem textLength_innerClassEntries {shared : Option SharedId} {methods : Nat}
    (short : ShortTexts outer type symbols shared) (few : methods ≤ 65535) :
    ∀ entry ∈ innerClassEntries outer type symbols shared methods,
      entry.textLength ≤ maxCount := by
  rw [innerClassEntries, List.forall_mem_append, List.forall_mem_append]
  refine ⟨textLength_common short.className short.sharedId, ?_, ?_⟩
  · intro entry listed
    obtain ⟨symbol, member, own⟩ := List.mem_flatMap.mp listed
    exact textLength_symbol (short.names symbol member) (short.labels symbol member) entry own
  · intro entry listed
    obtain ⟨ordinal, below, own⟩ := List.mem_flatMap.mp listed
    have := List.mem_range.mp below
    exact textLength_method (by omega) entry own

/-- A class whose entries are listed has at most as many different ones as the list. -/
private theorem length_dedup_le {entries listed : List Entry} (inside : entries ⊆ listed) :
    entries.dedup.length ≤ listed.length :=
  (entries.nodup_dedup.subperm fun _ member => inside (List.mem_dedup.mp member)).length_le

/-- A class of a resource type is written if the texts that it is given can be constants and it has
not too many fields, elements and methods. -/
theorem innerClass_written {methods : List (InitializerMethod Symbol)}
    (done : innerClass outer type symbols directory config = .ok decl)
    (planned : plan decl.name config.sharedId.isSome
      (symbols.filter (Symbol.isAssigned config)) = .ok methods)
    (short : ShortTexts outer type symbols config.sharedId)
    (few : 5 * symbols.length + total (symbols.map Symbol.elementCount) + 3 * methods.length ≤
      65490) :
    ∃ bytes, decl.toBytes = .ok bytes := by
  obtain ⟨blocks, cutting, rfl⟩ := innerClass_ok done
  have fits := (cut_fits (addable_symbols _ _) cutting).1
  have chain : methods = link blocks := by
    rw [← deferred_eq_filter, plan, cutting] at planned
    exact (Except.ok.inj planned).symm
  have count : methods.length = blocks.length := by
    have ordinals := congrArg List.length (map_ordinal_linkAfter 0 0 blocks)
    rwa [List.length_map, List.length_range', ← link, ← chain] at ordinals
  have listed : (innerClassOf outer type symbols config blocks).entries ⊆ _ :=
    entries_innerClassOf cutting
  have room := Nat.le_trans (length_dedup_le listed) length_innerClassEntries_le
  have max : maxCount = 65535 := rfl
  have counted : (innerClassOf outer type symbols config blocks).tooMany? = none := by
    have fields : ¬maxCount < (innerClassOf outer type symbols config blocks).fields.length := by
      rw [innerClassOf, List.length_map]
      omega
    have chained : ¬maxCount < (innerClassOf outer type symbols config blocks).methods.length := by
      rw [innerClassOf, List.length_cons, List.length_map, ← chain]
      omega
    rw [ClassDecl.tooMany?, if_neg fields, if_neg chained]
    rfl
  refine ClassDecl.exists_toBytes counted (writable_innerClassOf outer type symbols config fits)
    ?_ ?_
  · exact fun entry asked => textLength_innerClassEntries short (by omega) entry (listed asked)
  · omega

/-- The class of an int and an array that come from dependencies, with annotations and a shared id
that owns some of their numbers. -/
theorem innerClass_written_labelled :
    let symbols : List Symbol :=
      [⟨"one", .int 0x7f010001, some "//a:b"⟩, ⟨"two", .array [5, 0x7f010002], some "é"⟩]
    let config : Config := { ownedConfig with annotate := true }
    ∃ decl methods,
      innerClass "a/R" .id symbols "out" config = .ok decl ∧
        plan decl.name config.sharedId.isSome (symbols.filter (Symbol.isAssigned config)) =
          .ok methods ∧
        ShortTexts "a/R" .id symbols config.sharedId ∧
        5 * symbols.length + total (symbols.map Symbol.elementCount) + 3 * methods.length ≤ 65490 ∧
        ∃ bytes, decl.toBytes = .ok bytes := by
  intro symbols config
  have done : innerClass "a/R" .id symbols "out" config =
      .ok (innerClassOf "a/R" .id symbols config [⟨40, symbols⟩]) := by rfl
  have planned : plan (innerClassOf "a/R" .id symbols config [⟨40, symbols⟩]).name
      config.sharedId.isSome (symbols.filter (Symbol.isAssigned config)) =
        .ok [⟨0, 40, 0, symbols, none⟩] := by rfl
  have short : ShortTexts "a/R" .id symbols config.sharedId :=
    ⟨by decide, by decide +kernel, by decide, by decide⟩
  exact ⟨_, _, done, planned, short, by decide,
    innerClass_written done planned short (by decide)⟩

end

end Generation

end ResourceClasses
