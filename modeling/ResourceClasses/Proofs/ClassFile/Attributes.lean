import Mathlib.Data.List.Forall2
import ResourceClasses.ClassFile.Parse
import ResourceClasses.Proofs.ClassFile.Code
import ResourceClasses.Proofs.ClassFile.Reads

/-!
Attributes and their bytes: what a list of attributes is written for is read back from it, one
attribute at a time, if its content is short enough for its length to be written.
-/

set_option autoImplicit false

namespace ResourceClasses.ClassFile

open Pooled Reader

variable {α β : Type}

private theorem yields_mapM {write : α → Pooled (List UInt8)}
    {good : ConstantPool → α → List UInt8 → Prop} (items : List α)
    (each : ∀ item ∈ items, Yields (write item) fun final bytes => good final item bytes) :
    Yields (items.mapM write) fun final pieces => List.Forall₂ (good final) items pieces := by
  induction items with
  | nil =>
    rw [List.mapM_nil]
    exact .pure fun _ => .nil
  | cons item rest ih =>
    have each_rest : ∀ other ∈ rest, Yields (write other) fun final bytes =>
        good final other bytes := by
      intro other member
      exact each other (List.mem_cons_of_mem _ member)
    rw [List.mapM_cons]
    refine (each item List.mem_cons_self).bind ?_
    intro piece
    refine (ih each_rest).bind ?_
    intro pieces
    exact .pure fun _ later first => .cons first later

/-- What each item of a list yields holds of the pieces of the whole. -/
theorem yields_concatenated {write : α → Pooled (List UInt8)}
    {good : ConstantPool → α → List UInt8 → Prop} (items : List α)
    (each : ∀ item ∈ items, Yields (write item) fun final bytes => good final item bytes) :
    Yields (concatenated write items) fun final bytes =>
      ∃ pieces, List.Forall₂ (good final) items pieces ∧ bytes = pieces.flatten := by
  refine (yields_mapM items each).bind ?_
  intro pieces
  exact .pure fun _ good => ⟨pieces, good, rfl⟩

/-- Items that are read back are read back as a list, which is as long as all of them. -/
theorem yields_items {write : α → Pooled (List UInt8)} {reader : ConstantPool → Reader α}
    {size : α → Nat} (items : List α)
    (each : ∀ item ∈ items, Yields (write item) fun final bytes =>
      Reads (reader final) bytes item ∧ bytes.length = size item) :
    Yields (concatenated write items) fun final bytes =>
      Reads (repeated items.length (reader final)) bytes items ∧
        bytes.length = total (items.map size) := by
  refine (yields_concatenated items each).mono ?_
  intro final bytes found
  obtain ⟨pieces, good, rfl⟩ := found
  constructor
  · apply Reads.repeated
    exact (good.imp fun _ _ both => both.1).flip
  · clear each
    induction good with
    | nil => rfl
    | cons first _ ih => simp [first.2, ih]

private theorem exists_values {relation : α → β → Prop} {reads : List UInt8 → β → Prop}
    {items : List α} {pieces : List (List UInt8)}
    (good : List.Forall₂ (fun item bytes => ∃ value, reads bytes value ∧ relation item value)
      items pieces) :
    ∃ values, List.Forall₂ reads pieces values ∧ List.Forall₂ relation items values := by
  induction good with
  | nil => exact ⟨[], .nil, .nil⟩
  | cons first _ ih =>
    obtain ⟨value, read, related⟩ := first
    obtain ⟨values, reads_all, related_all⟩ := ih
    exact ⟨value :: values, .cons read reads_all, .cons related related_all⟩

/-- Items that are read as values that fit them are read as a list of such values. -/
theorem yields_values {write : α → Pooled (List UInt8)} {reader : ConstantPool → Reader β}
    {relation : α → β → Prop} (items : List α)
    (each : ∀ item ∈ items, Yields (write item) fun final bytes =>
      ∃ value, Reads (reader final) bytes value ∧ relation item value) :
    Yields (concatenated write items) fun final bytes =>
      ∃ values, Reads (repeated items.length (reader final)) bytes values ∧
        List.Forall₂ relation items values := by
  refine (yields_concatenated items each).mono ?_
  intro final bytes found
  obtain ⟨pieces, good, rfl⟩ := found
  obtain ⟨values, reads, related⟩ := exists_values good
  refine ⟨values, ?_, related⟩
  rw [related.length_eq]
  exact Reads.repeated reads

section

variable {pool : ConstantPool} {index : UInt16}

theorem reads_utf8 {text : String} (found : pool.utf8At index = .ok text) :
    Reads (readUtf8 pool) (word16 index) text :=
  (Reads.twoBytes index).bind_nil (Reads.ofExcept found)

theorem reads_class {name : String} (found : pool.classAt index = .ok name) :
    Reads (readClass pool) (word16 index) name :=
  (Reads.twoBytes index).bind_nil (Reads.ofExcept found)

theorem reads_none (resolve : UInt16 → Except FormatError String) :
    Reads (readOptional resolve) (word16 0) none :=
  (Reads.twoBytes 0).bind_nil (Reads.pure none)

theorem reads_some {resolve : UInt16 → Except FormatError String} {name : String}
    (found : index ≠ 0 ∧ resolve index = .ok name) :
    Reads (readOptional resolve) (word16 index) (some name) := by
  refine (Reads.twoBytes index).bind_nil ?_
  rw [if_neg found.1]
  exact (Reads.ofExcept found.2).map some

end

def maxContent : Nat :=
  0xffffffff

def Annotation.size (note : Annotation) : Nat :=
  4 + 5 * note.elements.length

/-- Whether a list of annotations can be written without cutting off a count or a length. -/
structure AnnotationsFit (annotations : List Annotation) : Prop where
  few : annotations.length ≤ maxCount
  few_elements : ∀ note ∈ annotations, note.elements.length ≤ maxCount
  short : 2 + total (annotations.map Annotation.size) ≤ maxContent

theorem total_map_const (items : List α) (size : Nat) :
    total (items.map fun _ => size) = size * items.length := by
  induction items with
  | nil => rfl
  | cons item rest ih =>
    rw [List.map_cons, total_cons, ih, List.length_cons, Nat.mul_succ, Nat.add_comm]

theorem yields_elementBytes (element : String × ElementValue) :
    Yields (elementBytes element) fun final bytes =>
      Reads (readElement final) bytes element ∧ bytes.length = 5 := by
  obtain ⟨name, value⟩ := element
  refine (ConstantPool.yields_utf8 name).bind ?_
  intro name_index
  cases value with
  | string text =>
    refine (ConstantPool.yields_utf8 text).bind ?_
    intro index
    refine .pure fun final spelled named => ⟨?_, by simp [word16]⟩
    refine (reads_utf8 named.2).bind (Reads.bind_nil ?_ (Reads.pure _))
    refine (Reads.byte 0x73).bind ((Reads.twoBytes index).bind_nil (Reads.ofExcept ?_))
    rw [spelled.2]
    rfl
  | int number =>
    refine (ConstantPool.yields_integer number).bind ?_
    intro index
    refine .pure fun final found named => ⟨?_, by simp [word16]⟩
    refine (reads_utf8 named.2).bind (Reads.bind_nil ?_ (Reads.pure _))
    refine (Reads.byte 0x49).bind ((Reads.twoBytes index).bind_nil (Reads.ofExcept ?_))
    rw [ConstantPool.integerAt_of_get? found]
    rfl

theorem yields_annotation {note : Annotation} (few : note.elements.length ≤ maxCount) :
    Yields note.encode fun final bytes =>
      Reads (readAnnotationEntry final) bytes note ∧ bytes.length = note.size := by
  refine (ConstantPool.yields_utf8 note.descriptor).bind ?_
  intro descriptor
  refine (yields_items note.elements fun element _ => yields_elementBytes element).bind ?_
  intro elements
  refine .pure fun final found named => ⟨?_, ?_⟩
  · rw [List.append_assoc]
    refine (reads_utf8 named.2).bind (Reads.bind_nil ?_ (Reads.pure _))
    exact (Reads.count (Nat.lt_succ_of_le few)).bind found.1
  · simp only [List.length_append, length_bigEndian, word16, found.2, total_map_const]
    rfl

theorem yields_annotationsBody {annotations : List Annotation} (fit : AnnotationsFit annotations) :
    Yields (annotationsBody annotations) fun final bytes =>
      Reads (counted (readAnnotationEntry final)) bytes annotations ∧
        bytes.length = 2 + total (annotations.map Annotation.size) := by
  refine (yields_items annotations fun note member =>
    yields_annotation (fit.few_elements note member)).bind ?_
  intro body
  refine .pure fun final found => ⟨?_, ?_⟩
  · exact (Reads.count (Nat.lt_succ_of_le fit.few)).bind found.1
  · rw [List.length_append, length_bigEndian, found.2]

private theorem yields_optionalIndex {intern : String → Pooled UInt16}
    {resolve : ConstantPool → UInt16 → Except FormatError String}
    (known : ∀ name, Yields (intern name) fun final index =>
      index ≠ 0 ∧ resolve final index = .ok name) (name : Option String) :
    Yields (optionalIndex intern name) fun final index =>
      Reads (readOptional (resolve final)) (word16 index) name := by
  cases name with
  | none => exact .pure fun final => reads_none (resolve final)
  | some name => exact (known name).mono fun _ _ found => reads_some found

theorem yields_innerClass (entry : InnerClass) :
    Yields entry.encode fun final bytes =>
      Reads (readInnerClass final) bytes entry ∧ bytes.length = 8 := by
  refine (ConstantPool.yields_classInfo entry.inner).bind ?_
  intro inner
  refine (yields_optionalIndex ConstantPool.yields_classInfo entry.outer).bind ?_
  intro outer
  refine (yields_optionalIndex ConstantPool.yields_utf8 entry.simpleName).bind ?_
  intro simple_name
  refine .pure fun final simply around named => ⟨?_, by simp [word16]⟩
  rw [List.append_assoc, List.append_assoc]
  refine (reads_class named.2).bind (around.bind (simply.bind ?_))
  exact (Reads.twoBytes entry.access).bind_nil (Reads.pure _)

/-- Whether the content of an attribute is short and is read as the attribute. -/
def Contains (pool : ConstantPool) (content : KnownAttribute × List UInt8)
    (held : Attribute) : Prop :=
  content.2.length ≤ maxContent ∧ Reads (readKnown pool content.1) content.2 held

theorem ofName?_name (known : KnownAttribute) :
    KnownAttribute.ofName? known.name = some known := by
  cases known <;> decide

theorem attributeOf_of_reads {pool : ConstantPool} {known : KnownAttribute} {content : List UInt8}
    {held : Attribute} (reads : Reads (readKnown pool known) content held) :
    attributeOf pool known.name content = .ok held := by
  simp only [attributeOf, ofName?_name, reads.run]

private theorem yields_attributeBytes (content : KnownAttribute × List UInt8) :
    Yields (attributeBytes content) fun final bytes =>
      ∀ held, Contains final content held →
        Reads (readAttribute final) bytes held := by
  refine (ConstantPool.yields_utf8 content.1.name).bind ?_
  intro name
  refine .pure fun final named held contains => ?_
  have short : content.2.length < 0x100000000 := Nat.lt_succ_of_le contains.1
  rw [List.append_assoc]
  refine (reads_utf8 named.2).bind ((Reads.length short).bind ?_)
  exact (Reads.take content.2).bind_nil (Reads.ofExcept (attributeOf_of_reads contains.2))

private theorem reads_each {pool : ConstantPool} {contents : List (KnownAttribute × List UInt8)}
    {pieces : List (List UInt8)} {attributes : List Attribute}
    (each : List.Forall₂ (fun content bytes => ∀ held, Contains pool content held →
      Reads (readAttribute pool) bytes held) contents pieces)
    (contain : List.Forall₂ (Contains pool) contents attributes) :
    List.Forall₂ (Reads (readAttribute pool)) pieces attributes := by
  induction each generalizing attributes with
  | nil =>
    cases contain
    exact .nil
  | cons first _ ih =>
    cases contain with
    | cons contains later => exact .cons (first _ contains) (ih later)

/-- A list of attributes is read back from the contents that it is written from. -/
theorem yields_attributesBytes (contents : List (KnownAttribute × List UInt8)) :
    Yields (attributesBytes contents) fun final bytes =>
      ∀ attributes, List.Forall₂ (Contains final) contents attributes →
        contents.length ≤ maxCount → Reads (counted (readAttribute final)) bytes attributes := by
  refine (yields_concatenated contents fun content _ => yields_attributeBytes content).bind ?_
  intro bytes
  refine .pure fun final found attributes contain few => ?_
  obtain ⟨pieces, each, rfl⟩ := found
  rw [contain.length_eq] at few ⊢
  exact Reads.counted (reads_each each contain) (Nat.lt_succ_of_le few)

theorem yields_constantAttributes (constant : Option ConstantValue) :
    Yields (constantAttributes constant) fun final contents =>
      List.Forall₂ (Contains final) contents (constant.toList.map Attribute.constantValue) := by
  cases constant with
  | none => exact .pure fun _ => .nil
  | some value =>
    cases value with
    | int number =>
      refine (ConstantPool.yields_integer number).bind ?_
      intro index
      refine .pure fun final found => .cons ⟨by simp [word16, maxContent], ?_⟩ .nil
      refine ((Reads.twoBytes index).bind_nil ?_).map Attribute.constantValue
      rw [found]
      exact Reads.pure _
    | string text =>
      refine (ConstantPool.yields_string text).bind ?_
      intro index
      refine .pure fun final found => .cons ⟨by simp [word16, maxContent], ?_⟩ .nil
      obtain ⟨place, string, spelled⟩ := found
      refine ((Reads.twoBytes index).bind_nil ?_).map Attribute.constantValue
      simp only [string, ConstantPool.stringAt, spelled]
      exact Reads.ofExcept rfl

/-- The attributes that a list of annotations is read as. -/
def annotationsRead (annotations : List Annotation) : List Attribute :=
  if annotations.isEmpty then [] else [.visibleAnnotations annotations]

theorem yields_annotationAttributes {annotations : List Annotation}
    (fit : AnnotationsFit annotations) :
    Yields (annotationAttributes annotations) fun final contents =>
      List.Forall₂ (Contains final) contents (annotationsRead annotations) := by
  unfold annotationAttributes annotationsRead
  split
  · exact .pure fun _ => .nil
  · refine (yields_annotationsBody fit).bind ?_
    intro body
    refine .pure fun final found => .cons ⟨?_, found.1.map Attribute.visibleAnnotations⟩ .nil
    rw [found.2]
    exact fit.short

end ResourceClasses.ClassFile
