import Mathlib.Data.List.Dedup
import ResourceClasses.ClassFile.Declaration
import ResourceClasses.Proofs.ClassFile.Lookup
import ResourceClasses.Total

/-!
Entries: constants by what they stand for. A filled pool has one constant for an entry, so the
entries that a class asks for bound the constants of its pool.
-/

set_option autoImplicit false

namespace ResourceClasses.ClassFile

/-- What a constant of a class stands for, without the indices of a pool. -/
inductive Entry
  | utf8 (text : String)
  | integer (value : Int32)
  | classInfo (name : String)
  | string (text : String)
  | nameAndType (name descriptor : String)
  | fieldRef (ref : MemberRef)
  | methodRef (ref : MemberRef)
  deriving DecidableEq, Repr

namespace Entry

/-- The number of bytes of the text that an entry holds itself. -/
def textLength : Entry → Nat
  | utf8 text => (Text.ModifiedUtf8.encode text).length
  | _ => 0

def ofClass (name : String) : List Entry :=
  [.utf8 name, .classInfo name]

def ofString (text : String) : List Entry :=
  [.utf8 text, .string text]

/-- The entries of the owner of a member and of what selects it. -/
def ofMember (ref : MemberRef) : List Entry :=
  ofClass ref.owner ++
    [.utf8 ref.name, .utf8 ref.descriptor, .nameAndType ref.name ref.descriptor]

def ofField (ref : MemberRef) : List Entry :=
  ofMember ref ++ [.fieldRef ref]

def ofMethod (ref : MemberRef) : List Entry :=
  ofMember ref ++ [.methodRef ref]

end Entry

/-- The entries that an instruction asks for. -/
def Insn.entries : Insn → List Entry
  | pushInt value =>
    if -32768 ≤ value.toInt ∧ value.toInt ≤ 32767 then [] else [.integer value]
  | getStatic field | putStatic field => Entry.ofField field
  | invokeStatic method | invokeSpecial method => Entry.ofMethod method
  | _ => []

def elementEntries : String × ElementValue → List Entry
  | (name, .string text) => [.utf8 name, .utf8 text]
  | (name, .int value) => [.utf8 name, .integer value]

/-- The entries of the annotations of a class or of a member. -/
def annotationEntries (annotations : List Annotation) : List Entry :=
  if annotations.isEmpty then []
  else
    .utf8 KnownAttribute.visibleAnnotations.name ::
      annotations.flatMap fun note => .utf8 note.descriptor :: note.elements.flatMap elementEntries

/-- The entries of the constant that a field holds from the start. -/
def constantEntries : Option ConstantValue → List Entry
  | some (.int value) => [.utf8 KnownAttribute.constantValue.name, .integer value]
  | some (.string text) => .utf8 KnownAttribute.constantValue.name :: Entry.ofString text
  | none => []

def FieldDecl.entries (field : FieldDecl) : List Entry :=
  [.utf8 field.name, .utf8 field.descriptor] ++ constantEntries field.constant ++
    annotationEntries field.annotations

def MethodDecl.entries (method : MethodDecl) : List Entry :=
  [.utf8 method.name, .utf8 method.descriptor, .utf8 KnownAttribute.code.name] ++
    method.code.flatMap Insn.entries

def InnerClass.entries (entry : InnerClass) : List Entry :=
  Entry.ofClass entry.inner ++ entry.outer.toList.flatMap Entry.ofClass ++
    entry.simpleName.toList.map Entry.utf8

/-- The entries of the nested classes that a class lists. -/
def innerEntries (entries : List InnerClass) : List Entry :=
  if entries.isEmpty then []
  else .utf8 KnownAttribute.innerClasses.name :: entries.flatMap InnerClass.entries

def sourceEntries : Option String → List Entry
  | some name => [.utf8 KnownAttribute.sourceFile.name, .utf8 name]
  | none => []

def ClassDecl.entries (decl : ClassDecl) : List Entry :=
  Entry.ofClass decl.name ++ Entry.ofClass decl.superName ++
    decl.fields.flatMap FieldDecl.entries ++ decl.methods.flatMap MethodDecl.entries ++
      sourceEntries decl.sourceFile ++ innerEntries decl.innerClasses ++
        annotationEntries decl.annotations

namespace ConstantPool

variable {pool later : ConstantPool}

namespace Within

variable {index : UInt16}

theorem utf8At (within : pool.Within later) {text : String}
    (found : pool.utf8At index = .ok text) : later.utf8At index = .ok text :=
  utf8At_eq_ok.mpr (within _ _ (utf8At_eq_ok.mp found))

theorem classAt (within : pool.Within later) {name : String}
    (found : pool.classAt index = .ok name) : later.classAt index = .ok name := by
  obtain ⟨place, info, named⟩ := classAt_eq_ok.mp found
  exact classAt_eq_ok.mpr ⟨place, within _ _ info, within.utf8At named⟩

theorem memberOf (within : pool.Within later) {owner selector : UInt16} {ref : MemberRef}
    (found : pool.memberOf owner selector = .ok ref) :
    later.memberOf owner selector = .ok ref := by
  obtain ⟨first, second, pair, owned, named, typed⟩ := memberOf_eq_ok.mp found
  exact memberOf_eq_ok.mpr ⟨first, second, within _ _ pair, within.classAt owned,
    within.utf8At named, within.utf8At typed⟩

end Within

/-- Whether a constant of a pool stands for an entry. -/
def Means (pool : ConstantPool) (constant : Constant) : Entry → Prop
  | .utf8 text => constant = .utf8 text
  | .integer value => constant = .integer value
  | .classInfo name => ∃ place, constant = .classInfo place ∧ pool.utf8At place = .ok name
  | .string text => ∃ place, constant = .string place ∧ pool.utf8At place = .ok text
  | .nameAndType name descriptor =>
    ∃ first second, constant = .nameAndType first second ∧ pool.utf8At first = .ok name ∧
      pool.utf8At second = .ok descriptor
  | .fieldRef ref =>
    ∃ owner selector, constant = .fieldRef owner selector ∧
      pool.memberOf owner selector = .ok ref
  | .methodRef ref =>
    ∃ owner selector, constant = .methodRef owner selector ∧
      pool.memberOf owner selector = .ok ref

theorem Means.mono {constant : Constant} {entry : Entry} (means : pool.Means constant entry)
    (within : pool.Within later) : later.Means constant entry := by
  cases entry with
  | utf8 text => exact means
  | integer value => exact means
  | classInfo name =>
    obtain ⟨place, rfl, named⟩ := means
    exact ⟨place, rfl, within.utf8At named⟩
  | string text =>
    obtain ⟨place, rfl, spelled⟩ := means
    exact ⟨place, rfl, within.utf8At spelled⟩
  | nameAndType name descriptor =>
    obtain ⟨first, second, rfl, named, typed⟩ := means
    exact ⟨first, second, rfl, within.utf8At named, within.utf8At typed⟩
  | fieldRef ref =>
    obtain ⟨owner, selector, rfl, selected⟩ := means
    exact ⟨owner, selector, rfl, within.memberOf selected⟩
  | methodRef ref =>
    obtain ⟨owner, selector, rfl, selected⟩ := means
    exact ⟨owner, selector, rfl, within.memberOf selected⟩

theorem Means.width {constant : Constant} {entry : Entry} (means : pool.Means constant entry) :
    constant.width = 1 := by
  cases entry with
  | utf8 text => rw [means]; rfl
  | integer value => rw [means]; rfl
  | classInfo name => obtain ⟨_, rfl, _⟩ := means; rfl
  | string text => obtain ⟨_, rfl, _⟩ := means; rfl
  | nameAndType name descriptor => obtain ⟨_, _, rfl, _⟩ := means; rfl
  | fieldRef ref => obtain ⟨_, _, rfl, _⟩ := means; rfl
  | methodRef ref => obtain ⟨_, _, rfl, _⟩ := means; rfl

theorem Means.textLength {constant : Constant} {entry : Entry}
    (means : pool.Means constant entry) : constant.textLength = entry.textLength := by
  cases entry with
  | utf8 text => rw [means]; rfl
  | integer value => rw [means]; rfl
  | classInfo name => obtain ⟨_, rfl, _⟩ := means; rfl
  | string text => obtain ⟨_, rfl, _⟩ := means; rfl
  | nameAndType name descriptor => obtain ⟨_, _, rfl, _⟩ := means; rfl
  | fieldRef ref => obtain ⟨_, _, rfl, _⟩ := means; rfl
  | methodRef ref => obtain ⟨_, _, rfl, _⟩ := means; rfl

namespace Filled

theorem index_unique (filled : pool.Filled) {first second : UInt16} {constant : Constant}
    (one : pool.get? first = some constant) (other : pool.get? second = some constant) :
    first = second := by
  have same := filled.indices_of_get? one
  rw [filled.indices_of_get? other] at same
  exact (Option.some.inj same).symm

theorem utf8At_unique (filled : pool.Filled) {first second : UInt16} {text : String}
    (one : pool.utf8At first = .ok text) (other : pool.utf8At second = .ok text) :
    first = second :=
  filled.index_unique (utf8At_eq_ok.mp one) (utf8At_eq_ok.mp other)

theorem classAt_unique (filled : pool.Filled) {first second : UInt16} {name : String}
    (one : pool.classAt first = .ok name) (other : pool.classAt second = .ok name) :
    first = second := by
  obtain ⟨place, info, named⟩ := classAt_eq_ok.mp one
  obtain ⟨other_place, other_info, other_named⟩ := classAt_eq_ok.mp other
  rw [filled.utf8At_unique named other_named] at info
  exact filled.index_unique info other_info

theorem memberOf_unique (filled : pool.Filled) {owner selector other_owner other_selector : UInt16}
    {ref : MemberRef} (one : pool.memberOf owner selector = .ok ref)
    (other : pool.memberOf other_owner other_selector = .ok ref) :
    owner = other_owner ∧ selector = other_selector := by
  obtain ⟨first, second, pair, owned, named, typed⟩ := memberOf_eq_ok.mp one
  obtain ⟨other_first, other_second, other_pair, other_owned, other_named, other_typed⟩ :=
    memberOf_eq_ok.mp other
  rw [filled.utf8At_unique named other_named, filled.utf8At_unique typed other_typed] at pair
  exact ⟨filled.classAt_unique owned other_owned, filled.index_unique pair other_pair⟩

/-- No two constants of a filled pool stand for one entry. -/
theorem means_unique (filled : pool.Filled) {constant other : Constant} {entry : Entry}
    (one : pool.Means constant entry) (another : pool.Means other entry) : constant = other := by
  cases entry with
  | utf8 text => rw [one, another]
  | integer value => rw [one, another]
  | classInfo name =>
    obtain ⟨place, rfl, named⟩ := one
    obtain ⟨other_place, rfl, other_named⟩ := another
    rw [filled.utf8At_unique named other_named]
  | string text =>
    obtain ⟨place, rfl, spelled⟩ := one
    obtain ⟨other_place, rfl, other_spelled⟩ := another
    rw [filled.utf8At_unique spelled other_spelled]
  | nameAndType name descriptor =>
    obtain ⟨first, second, rfl, named, typed⟩ := one
    obtain ⟨other_first, other_second, rfl, other_named, other_typed⟩ := another
    rw [filled.utf8At_unique named other_named, filled.utf8At_unique typed other_typed]
  | fieldRef ref =>
    obtain ⟨owner, selector, rfl, selected⟩ := one
    obtain ⟨other_owner, other_selector, rfl, other_selected⟩ := another
    obtain ⟨rfl, rfl⟩ := filled.memberOf_unique selected other_selected
    rfl
  | methodRef ref =>
    obtain ⟨owner, selector, rfl, selected⟩ := one
    obtain ⟨other_owner, other_selector, rfl, other_selected⟩ := another
    obtain ⟨rfl, rfl⟩ := filled.memberOf_unique selected other_selected
    rfl

end Filled

/-- Whether all constants of a pool stand for some of the given entries. -/
def Covered (entries : Entry → Prop) (pool : ConstantPool) : Prop :=
  ∀ index constant, pool.get? index = some constant →
    ∃ entry, entries entry ∧ pool.Means constant entry

theorem covered_empty (entries : Entry → Prop) : Covered entries .empty := by
  intro index constant found
  have known := Filled.indices_of_get? .refl found
  have missing : ConstantPool.empty.indices[constant]? = none := Std.HashMap.getElem?_empty
  rw [missing] at known
  contradiction

/-- The pools that a writer gets to: each constant leads to what it stands for. -/
structure Linked (pool : ConstantPool) : Prop where
  filled : pool.Filled
  covered : pool.Covered fun _ => True

theorem linked_empty : ConstantPool.empty.Linked :=
  ⟨.refl, covered_empty _⟩

/-- Whether a pool that is covered lacks one of the entries and has no slot left for it. -/
structure Crowded (entries : Entry → Prop) (pool : ConstantPool) : Prop where
  filled : pool.Filled
  covered : pool.Covered entries
  full : maxCount ≤ pool.count
  lacks : ∃ entry, entries entry ∧ ∀ index constant, pool.get? index = some constant →
    ¬pool.Means constant entry

private theorem length_le_of_related {α β : Type} [DecidableEq β] (relation : α → β → Prop)
    {items : List α} {values : List β} (distinct : items.Nodup)
    (related : ∀ item ∈ items, ∃ value ∈ values, relation item value)
    (unique : ∀ item other value, relation item value → relation other value → item = other) :
    items.length ≤ values.length := by
  induction items generalizing values with
  | nil => exact Nat.zero_le _
  | cons item rest ih =>
    obtain ⟨value, inside, relates⟩ := related item List.mem_cons_self
    obtain ⟨absent, distinct_rest⟩ := List.nodup_cons.mp distinct
    have related_rest : ∀ other ∈ rest, ∃ found ∈ values.erase value, relation other found := by
      intro other member
      obtain ⟨found, found_inside, found_relates⟩ := related other (List.mem_cons_of_mem _ member)
      have different : found ≠ value := by
        rintro rfl
        exact absent (unique item other found relates found_relates ▸ member)
      exact ⟨found, (List.mem_erase_of_ne different).mpr found_inside, found_relates⟩
    have shorter := ih distinct_rest related_rest
    have erased := List.length_erase_of_mem inside
    have positive := List.length_pos_of_mem inside
    rw [List.length_cons]
    omega

/-- A list of entries that crowds a pool has as many different ones as a pool can count. -/
theorem Crowded.maxCount_le {entries : List Entry} (crowded : pool.Crowded (· ∈ entries)) :
    maxCount ≤ entries.dedup.length := by
  obtain ⟨missing, wanted, lacked⟩ := crowded.lacks
  obtain ⟨constants, _, slots, distinct, inside, _⟩ := crowded.filled.exists_constants
  have found : ∀ constant ∈ constants, ∃ index, pool.get? index = some constant := by
    intro constant member
    obtain ⟨index, known⟩ := mem_indices_iff.mp ((inside constant).mp member)
    exact ⟨index, crowded.filled.sound.get?_of_indices constant index known⟩
  have narrow : ∀ constant ∈ constants, slotsOf constant = [some constant] := by
    intro constant member
    obtain ⟨index, at_index⟩ := found constant member
    obtain ⟨entry, _, means⟩ := crowded.covered index constant at_index
    have width := means.width
    unfold Constant.width at width
    rw [slotsOf, if_neg (by intro wide; rw [if_pos wide] at width; omega)]
  have count : pool.count = constants.length + 1 := by
    rw [ConstantPool.count, ← Array.length_toList, slots, List.length_cons,
      List.flatMap_congr narrow]
    simp
  have few : constants.length ≤ (entries.dedup.erase missing).length := by
    apply length_le_of_related pool.Means distinct
    · intro constant member
      obtain ⟨index, at_index⟩ := found constant member
      obtain ⟨entry, listed, means⟩ := crowded.covered index constant at_index
      have different : entry ≠ missing := by
        rintro rfl
        exact lacked index constant at_index means
      exact ⟨entry, (List.mem_erase_of_ne different).mpr (List.mem_dedup.mpr listed), means⟩
    · intro constant other entry one another
      exact crowded.filled.means_unique one another
  have erased := List.length_erase_of_mem (List.mem_dedup.mpr wanted)
  have positive := List.length_pos_of_mem (List.mem_dedup.mpr wanted)
  have full := crowded.full
  omega

end ConstantPool

end ResourceClasses.ClassFile
