import ResourceClasses.Proofs.ClassFile.Attributes
import ResourceClasses.Proofs.ClassFile.PoolBytes
import ResourceClasses.Proofs.ClassFile.Progress

/-!
Classes and their class files: a class that is written is read back as it was declared, with the
instructions of its methods, unless a number of it is cut off.
-/

set_option autoImplicit false

namespace ResourceClasses.ClassFile

open Pooled Reader

/-- Whether a member that was read is the declared field. -/
structure FieldDecl.ReadAs (field : FieldDecl) (member : Member) : Prop where
  access : member.access = field.access
  name : member.name = field.name
  descriptor : member.descriptor = field.descriptor
  constant : member.constantValue? = field.constant
  annotations : member.annotations = field.annotations

/-- Whether a code attribute holds the body of the declared method. -/
structure MethodDecl.CodeReadAs (method : MethodDecl) (code : CodeAttribute) : Prop where
  instructions : code.instructions.map Code.Located.insn = method.code
  maxStack : code.maxStack.toNat = Code.largestDepth method.code
  maxLocals : ∃ argumentSlots, method.argumentSlots = .ok argumentSlots ∧
    code.maxLocals.toNat = Code.localSlots argumentSlots method.code

/-- Whether a member that was read is the declared method, with its code and nothing else. -/
structure MethodDecl.ReadAs (method : MethodDecl) (member : Member) : Prop where
  access : member.access = method.access
  name : member.name = method.name
  descriptor : member.descriptor = method.descriptor
  code : ∃ code, member.attributes = [.code code] ∧ method.CodeReadAs code

/-- Whether a class file that was read is the declared class. -/
structure ClassDecl.ReadAs (decl : ClassDecl) (file : ClassFile) : Prop where
  majorVersion : file.majorVersion = 51
  minorVersion : file.minorVersion = 0
  access : file.access = decl.access
  name : file.thisClass = decl.name
  superName : file.superClass = some decl.superName
  interfaces : file.interfaces = []
  sourceFile : file.sourceFile? = decl.sourceFile
  innerClasses : file.innerClasses = decl.innerClasses
  annotations : file.annotations = decl.annotations
  fields : List.Forall₂ FieldDecl.ReadAs decl.fields file.fields
  methods : List.Forall₂ MethodDecl.ReadAs decl.methods file.methods

/-- Whether the slots and the operands of a method can be counted in two bytes. -/
structure MethodDecl.Fits (method : MethodDecl) : Prop where
  slots : ∀ insn ∈ method.code, ∀ slot, insn.local? = some slot → slot.toNat < 65535
  depths : ∀ depth ∈ Code.depths 0 method.code, depth ≤ 65535
  arguments : ∀ slots, method.argumentSlots = .ok slots → slots ≤ 65535

/-- Whether no number that is written for a class is cut off without being checked. -/
structure ClassDecl.Fits (decl : ClassDecl) : Prop where
  annotations : AnnotationsFit decl.annotations
  fields : ∀ field ∈ decl.fields, AnnotationsFit field.annotations
  methods : ∀ method ∈ decl.methods, method.Fits

private theorem foldl_max_le {bound start : Nat} {numbers : List Nat} (first : start ≤ bound)
    (each : ∀ n ∈ numbers, n ≤ bound) : numbers.foldl max start ≤ bound := by
  induction numbers generalizing start with
  | nil => exact first
  | cons n rest ih =>
    have next : max start n ≤ bound := Nat.max_le.mpr ⟨first, each n List.mem_cons_self⟩
    exact ih next fun other member => each other (List.mem_cons_of_mem _ member)

namespace MethodDecl.Fits

variable {method : MethodDecl}

theorem largestDepth_le (fits : method.Fits) : Code.largestDepth method.code ≤ 65535 :=
  foldl_max_le (Nat.zero_le _) fits.depths

theorem localSlots_le (fits : method.Fits) {argumentSlots : Nat}
    (known : method.argumentSlots = .ok argumentSlots) :
    Code.localSlots argumentSlots method.code ≤ 65535 := by
  apply foldl_max_le (fits.arguments argumentSlots known)
  intro n member
  obtain ⟨slot, used, rfl⟩ := List.mem_map.mp member
  obtain ⟨insn, inside, slot_of_insn⟩ := List.mem_filterMap.mp used
  have below := fits.slots insn inside slot slot_of_insn
  omega

end MethodDecl.Fits

def FieldDecl.member (field : FieldDecl) : Member where
  access := field.access
  name := field.name
  descriptor := field.descriptor
  attributes :=
    field.constant.toList.map Attribute.constantValue ++ annotationsRead field.annotations

theorem FieldDecl.readAs_member (field : FieldDecl) : field.ReadAs field.member where
  access := rfl
  name := rfl
  descriptor := rfl
  constant := by
    simp only [Member.constantValue?, FieldDecl.member, annotationsRead]
    cases field.constant with
    | some value => rfl
    | none => cases field.annotations <;> rfl
  annotations := by
    simp only [Member.annotations, FieldDecl.member, Attribute.annotationsIn, annotationsRead]
    cases field.constant <;> cases field.annotations <;> rfl

private theorem FieldDecl.few_attributes (field : FieldDecl) :
    field.member.attributes.length ≤ 2 := by
  simp only [FieldDecl.member, annotationsRead]
  cases field.constant <;> split <;> simp

theorem yields_field {field : FieldDecl} (fit : AnnotationsFit field.annotations) :
    Yields field.encode fun final bytes =>
      ∃ member, Reads (readMember final) bytes member ∧ field.ReadAs member := by
  refine (ConstantPool.yields_utf8 field.name).bind ?_
  intro name
  refine (ConstantPool.yields_utf8 field.descriptor).bind ?_
  intro descriptor
  refine (yields_constantAttributes field.constant).bind ?_
  intro constants
  refine (yields_annotationAttributes fit).bind ?_
  intro annotations
  refine (yields_attributesBytes (constants ++ annotations)).bind ?_
  intro attributes
  refine .pure fun final written annotated valued typed named => ?_
  have contained : List.Forall₂ (Contains final) (constants ++ annotations)
      field.member.attributes := List.rel_append valued annotated
  have few : (constants ++ annotations).length ≤ maxCount := by
    rw [contained.length_eq]
    exact Nat.le_trans field.few_attributes (by decide)
  refine ⟨field.member, ?_, field.readAs_member⟩
  rw [List.append_assoc, List.append_assoc]
  refine (Reads.twoBytes field.access).bind ((reads_utf8 named.2).bind
    ((reads_utf8 typed.2).bind (Reads.bind_nil ?_ (Reads.pure _))))
  exact written _ contained few

private theorem reads_code {pool : ConstantPool} {method : MethodDecl} (fits : method.Fits)
    {argumentSlots : Nat} (known : method.argumentSlots = .ok argumentSlots)
    {encoded : Code.Encoded} (holds : encoded.Holds pool argumentSlots method.code) :
    ∃ code, Contains pool (.code, encoded.content) (.code code) ∧ method.CodeReadAs code := by
  obtain ⟨located, found, same⟩ := holds.instructions
  have short : encoded.bytes.length ≤ 65535 := holds.size_le
  have small : encoded.bytes.length < 0x100000000 := by omega
  have stack : encoded.maxStack < 0x10000 := by
    rw [holds.maxStack]
    exact Nat.lt_succ_of_le fits.largestDepth_le
  have locals : encoded.maxLocals < 0x10000 := by
    rw [holds.maxLocals]
    exact Nat.lt_succ_of_le (fits.localSlots_le known)
  have word_stack : bigEndian 2 encoded.maxStack = word16 (UInt16.ofNat encoded.maxStack) := by
    rw [word16, UInt16.toNat_ofNat', Nat.mod_eq_of_lt stack]
  have word_locals : bigEndian 2 encoded.maxLocals = word16 (UInt16.ofNat encoded.maxLocals) := by
    rw [word16, UInt16.toNat_ofNat', Nat.mod_eq_of_lt locals]
  refine ⟨⟨UInt16.ofNat encoded.maxStack, UInt16.ofNat encoded.maxLocals, encoded.bytes, located⟩,
    ⟨?_, ?_⟩, same, ?_, argumentSlots, known, ?_⟩
  · have size : encoded.content.length = 12 + encoded.bytes.length := by
      simp only [Code.Encoded.content, List.length_append, length_bigEndian, word16]
      omega
    rw [size, maxContent]
    omega
  · have handlers : Reads (number 2) (word16 0) 0 := Reads.count (by decide)
    have no_handlers : Reads (Reader.take (8 * 0)) [] [] := Reads.take []
    rw [Code.Encoded.content, word_stack, word_locals]
    simp only [List.append_assoc]
    refine Reads.map ?_ Attribute.code
    refine (Reads.twoBytes _).bind ((Reads.twoBytes _).bind
      ((Reads.length small).bind ((Reads.take _).bind ?_)))
    refine handlers.bind (no_handlers.bind ((Reads.counted_nil _).bind_nil ?_))
    exact (Reads.ofExcept found).bind_nil (Reads.pure _)
  · rw [UInt16.toNat_ofNat', Nat.mod_eq_of_lt stack, holds.maxStack]
  · rw [UInt16.toNat_ofNat', Nat.mod_eq_of_lt locals, holds.maxLocals]

theorem yields_method {method : MethodDecl} (fits : method.Fits) :
    Yields method.encode fun final bytes =>
      ∃ member, Reads (readMember final) bytes member ∧ method.ReadAs member := by
  refine (ConstantPool.yields_utf8 method.name).bind ?_
  intro name
  refine (ConstantPool.yields_utf8 method.descriptor).bind ?_
  intro descriptor
  refine (Yields.ofExcept method.argumentSlots).bind ?_
  intro argumentSlots
  refine (Code.yields_encode method.name argumentSlots method.code).bind ?_
  intro encoded
  refine (yields_attributesBytes [(.code, encoded.content)]).bind ?_
  intro attributes
  refine .pure fun final written holds known typed named => ?_
  obtain ⟨code, contains, same⟩ := reads_code fits known holds
  refine ⟨⟨method.access, method.name, method.descriptor, [.code code]⟩, ?_, rfl, rfl, rfl, code,
    rfl, same⟩
  rw [List.append_assoc, List.append_assoc]
  refine (Reads.twoBytes method.access).bind ((reads_utf8 named.2).bind
    ((reads_utf8 typed.2).bind (Reads.bind_nil ?_ (Reads.pure _))))
  exact written _ (.cons contains .nil) (by simp [maxCount])

namespace ClassDecl

def attributesRead (decl : ClassDecl) : List Attribute :=
  decl.sourceFile.toList.map Attribute.sourceFile ++
    (if decl.innerClasses.isEmpty then [] else [.innerClasses decl.innerClasses]) ++
      annotationsRead decl.annotations

private theorem yields_sourceAttributes (decl : ClassDecl) :
    Yields decl.sourceAttributes fun final contents =>
      List.Forall₂ (Contains final) contents (decl.sourceFile.toList.map Attribute.sourceFile) := by
  unfold sourceAttributes
  cases decl.sourceFile with
  | none => exact .pure fun _ => .nil
  | some name =>
    refine (ConstantPool.yields_utf8 name).bind ?_
    intro index
    refine .pure fun final named => .cons ⟨by simp [word16, maxContent], ?_⟩ .nil
    exact (reads_utf8 named.2).map Attribute.sourceFile

private theorem yields_innerAttributes {decl : ClassDecl}
    (few : decl.innerClasses.length ≤ maxCount) :
    Yields decl.innerAttributes fun final contents =>
      List.Forall₂ (Contains final) contents
        (if decl.innerClasses.isEmpty then [] else [.innerClasses decl.innerClasses]) := by
  unfold innerAttributes
  split
  · exact .pure fun _ => .nil
  · refine (yields_items decl.innerClasses fun entry _ => yields_innerClass entry).bind ?_
    intro entries
    refine .pure fun final found => .cons ⟨?_, ?_⟩ .nil
    · have size : entries.length = 8 * decl.innerClasses.length := by
        rw [found.2, total_map_const]
      have count : decl.innerClasses.length ≤ 65535 := few
      rw [List.length_append, length_bigEndian, size, maxContent]
      omega
    · refine Reads.map ?_ Attribute.innerClasses
      exact (Reads.count (Nat.lt_succ_of_le few)).bind found.1

private theorem yields_attributes {decl : ClassDecl} (few : decl.innerClasses.length ≤ maxCount)
    (fit : AnnotationsFit decl.annotations) :
    Yields decl.attributes fun final contents =>
      List.Forall₂ (Contains final) contents decl.attributesRead := by
  refine (yields_sourceAttributes decl).bind ?_
  intro source
  refine (yields_innerAttributes few).bind ?_
  intro inner
  refine (yields_annotationAttributes fit).bind ?_
  intro annotations
  refine .pure fun final annotated nested named => ?_
  exact List.rel_append (List.rel_append named nested) annotated

private theorem few_attributesRead (decl : ClassDecl) : decl.attributesRead.length ≤ 3 := by
  unfold attributesRead annotationsRead
  cases decl.sourceFile <;> cases decl.innerClasses <;> cases decl.annotations <;> simp

/-- What is read after the pool of a class file. -/
def readAfterPool (minorVersion majorVersion : UInt16) (pool : ConstantPool) :
    Reader ClassFile := do
  let access ← twoBytes
  let thisClass ← readClass pool
  let superClass ← readOptional pool.classAt
  let interfaces ← counted (readClass pool)
  let fields ← counted (readMember pool)
  let methods ← counted (readMember pool)
  let attributes ← counted (readAttribute pool)
  pure
    { minorVersion, majorVersion, pool, access, thisClass, superClass, interfaces, fields,
      methods, attributes }

/-- The class file that a class is read as, with given members. -/
def file (decl : ClassDecl) (pool : ConstantPool) (fields methods : List Member) : ClassFile where
  minorVersion := writtenMinorVersion
  majorVersion := writtenMajorVersion
  pool := pool
  access := decl.access
  thisClass := decl.name
  superClass := some decl.superName
  interfaces := []
  fields := fields
  methods := methods
  attributes := decl.attributesRead

private theorem readAs_file (decl : ClassDecl) (pool : ConstantPool) {fields methods : List Member}
    (fields_same : List.Forall₂ FieldDecl.ReadAs decl.fields fields)
    (methods_same : List.Forall₂ MethodDecl.ReadAs decl.methods methods) :
    decl.ReadAs (decl.file pool fields methods) where
  majorVersion := rfl
  minorVersion := rfl
  access := rfl
  name := rfl
  superName := rfl
  interfaces := rfl
  sourceFile := by
    simp only [ClassFile.sourceFile?, file, attributesRead, annotationsRead]
    cases decl.sourceFile with
    | some name => rfl
    | none => cases decl.innerClasses <;> cases decl.annotations <;> rfl
  innerClasses := by
    simp only [ClassFile.innerClasses, file, attributesRead, annotationsRead]
    cases decl.sourceFile <;> cases decl.innerClasses <;> cases decl.annotations <;> rfl
  annotations := by
    simp only [ClassFile.annotations, file, attributesRead, annotationsRead,
      Attribute.annotationsIn]
    cases decl.sourceFile <;> cases decl.innerClasses <;> cases decl.annotations <;> rfl
  fields := fields_same
  methods := methods_same

private theorem counted_of_tooMany? {decl : ClassDecl} (few : decl.tooMany? = none) :
    decl.fields.length ≤ maxCount ∧ decl.methods.length ≤ maxCount ∧
      decl.innerClasses.length ≤ maxCount := by
  unfold tooMany? at few
  split at few
  · contradiction
  · split at few
    · contradiction
    · split at few
      · contradiction
      · exact ⟨by omega, by omega, by omega⟩

/-- What follows the pool of a class is read back against the finished pool. -/
theorem yields_body {decl : ClassDecl} (fits : decl.Fits) (few : decl.tooMany? = none) :
    Yields decl.body fun final bytes =>
      ∃ file, Reads (readAfterPool writtenMinorVersion writtenMajorVersion final) bytes file ∧
        decl.ReadAs file := by
  obtain ⟨few_fields, few_methods, few_inner⟩ := counted_of_tooMany? few
  refine (ConstantPool.yields_classInfo decl.name).bind ?_
  intro name
  refine (ConstantPool.yields_classInfo decl.superName).bind ?_
  intro superName
  refine (yields_values decl.fields fun field inside =>
    yields_field (fits.fields field inside)).bind ?_
  intro fields
  refine (yields_values decl.methods fun method inside =>
    yields_method (fits.methods method inside)).bind ?_
  intro methods
  refine (yields_attributes few_inner fits.annotations).bind ?_
  intro contents
  refine (yields_attributesBytes contents).bind ?_
  intro attributes
  refine .pure fun final written contained method_list field_list extended named => ?_
  obtain ⟨field_members, reads_fields, fields_same⟩ := field_list
  obtain ⟨method_members, reads_methods, methods_same⟩ := method_list
  have few_contents : contents.length ≤ maxCount := by
    rw [contained.length_eq]
    exact Nat.le_trans decl.few_attributesRead (by decide)
  refine ⟨decl.file final field_members method_members, ?_,
    readAs_file decl final fields_same methods_same⟩
  have counted_fields : Reads (counted (readMember final))
      (bigEndian 2 decl.fields.length ++ fields) field_members :=
    (Reads.count (Nat.lt_succ_of_le few_fields)).bind reads_fields
  have counted_methods : Reads (counted (readMember final))
      (bigEndian 2 decl.methods.length ++ methods) method_members :=
    (Reads.count (Nat.lt_succ_of_le few_methods)).bind reads_methods
  refine (Reads.twoBytes decl.access).bind ((reads_class named.2).bind
    ((reads_some extended).bind ((Reads.counted_nil _).bind ?_)))
  rw [← List.append_assoc (bigEndian 2 decl.fields.length)]
  refine counted_fields.bind ?_
  rw [← List.append_assoc (bigEndian 2 decl.methods.length)]
  refine counted_methods.bind ?_
  exact (written _ contained few_contents).bind_nil (Reads.pure _)

/-- The bytes of a class that is written are read to the last of them. -/
theorem reads_toBytes {decl : ClassDecl} {bytes : List UInt8} (fits : decl.Fits)
    (written : decl.toBytes = .ok bytes) :
    ∃ file, Reads readClassFile bytes file ∧ decl.ReadAs file := by
  unfold toBytes at written
  split at written
  · contradiction
  · rename_i few
    split at written
    · contradiction
    · rename_i body pool done
      have yielded := yields_body fits few .empty body pool ConstantPool.sound_empty done
      obtain ⟨file, reads_rest, same⟩ := yielded.2 pool (ConstantPool.Within.refl pool)
      have filled : pool.Filled := yielded.1
      refine ⟨file, ?_, same⟩
      have header : Reads readClassFile
          (word32 magic ++ (word16 writtenMinorVersion ++ (word16 writtenMajorVersion ++
            (pool.bytes ++ body)))) file :=
        (Reads.fourBytes magic).bind ((Reads.twoBytes writtenMinorVersion).bind
          ((Reads.twoBytes writtenMajorVersion).bind (filled.reads.bind reads_rest)))
      rw [Except.ok.injEq] at written
      rw [← written]
      simp only [List.append_assoc]
      exact header

theorem parse_of_reads {bytes : List UInt8} {file : ClassFile}
    (reads : Reads readClassFile bytes file) : parse bytes = .ok file := by
  rw [parse, reads.run]

/-- A class that is written is read back as it was declared. -/
theorem parse_toBytes {decl : ClassDecl} {bytes : List UInt8} (fits : decl.Fits)
    (written : decl.toBytes = .ok bytes) :
    ∃ file, parse bytes = .ok file ∧ decl.ReadAs file := by
  obtain ⟨file, reads, same⟩ := reads_toBytes fits written
  exact ⟨file, parse_of_reads reads, same⟩

/-- A class with a part of every kind. -/
def sample : ClassDecl where
  access := Access.publicFlag
  name := "a/R$id"
  superName := "java/lang/Object"
  sourceFile := some "R.java"
  innerClasses := [⟨"a/R$id", some "a/R", some "id", Access.publicFlag⟩, ⟨"a/R$1", none, none, 0⟩]
  annotations := [⟨"La/Origin;", [("path", .string "lib"), ("order", .int 70000)]⟩]
  fields :=
    [{ access := Access.staticFlag, name := "one", descriptor := "I", constant := some (.int 1) },
      { access := Access.staticFlag, name := "text", descriptor := "Ljava/lang/String;"
        constant := some (.string "text"), annotations := [⟨"La/Origin;", []⟩] }]
  methods :=
    [{ access := Access.staticFlag, name := "set", descriptor := "(I)V"
       code :=
         [.iload 0, .pushInt (-70000), .iadd, .putStatic ⟨"a/R$id", "one", "I"⟩, .returnVoid] }]

private theorem sample_fits : sample.Fits where
  annotations := ⟨by decide, by decide, by decide⟩
  fields := by
    intro field member
    rcases List.mem_cons.mp member with rfl | member
    · exact ⟨by decide, by decide, by decide⟩
    · rw [List.mem_singleton.mp member]
      exact ⟨by decide, by decide, by decide⟩
  methods := by
    intro method member
    rw [List.mem_singleton.mp member]
    refine ⟨by simp [Insn.local?], by decide, ?_⟩
    intro slots known
    cases known
    decide

private theorem sample_written : ∃ bytes, sample.toBytes = .ok bytes := by
  have writable : ∀ method ∈ sample.methods, method.Writable := by
    intro method member
    rw [List.mem_singleton.mp member]
    exact ⟨⟨1, rfl⟩, by decide, by decide⟩
  exact exists_toBytes rfl writable (by decide) (by decide)

theorem parse_toBytes_sample :
    ∃ bytes, sample.toBytes = .ok bytes ∧ ∃ file, parse bytes = .ok file ∧ sample.ReadAs file := by
  obtain ⟨bytes, written⟩ := sample_written
  exact ⟨bytes, written, parse_toBytes sample_fits written⟩

end ClassDecl

end ResourceClasses.ClassFile
