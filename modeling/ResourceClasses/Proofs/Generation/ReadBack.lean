import ResourceClasses.Proofs.ClassFile.RoundTrip
import ResourceClasses.Proofs.Generation.Size
import ResourceClasses.Proofs.Outcome

/-!
Generated classes as they are read back: nothing of a class of a resource type is cut off when it is
written, and the class that is read has the same static members.
-/

set_option autoImplicit false

namespace ResourceClasses

open ClassFile Generation

namespace ClassFile

/-- Whether an instruction is of the kind that generated methods consist of. -/
def Insn.Plain : Insn → Prop
  | aload slot | iload slot | istore slot => slot.toNat ≤ 1
  | getStatic field => field.descriptor = "I"
  | invokeStatic method | invokeSpecial method => method.descriptor = "()V"
  | pushInt _ | iadd | dup | newIntArray | iastore | putStatic _ | returnVoid => True

namespace Insn.Plain

variable {insn : Insn}

theorem slot_le (plain : insn.Plain) {slot : UInt16} (used : insn.local? = some slot) :
    slot.toNat ≤ 1 := by
  cases insn with
  | aload other | iload other | istore other =>
    cases used
    exact plain
  | _ => contradiction

/-- One operand is the most that an instruction adds. -/
theorem pushes_le (plain : insn.Plain) {pops pushes : Nat}
    (effect : insn.stackEffect = .ok (pops, pushes)) : pushes ≤ pops + 1 := by
  cases insn with
  | getStatic field =>
    have typed : field.descriptor = "I" := plain
    simp only [Insn.stackEffect, typed, Descriptor.fieldSlots_int] at effect
    cases effect
    exact Nat.le_refl 1
  | putStatic field =>
    obtain ⟨slots, _, same⟩ := bind_eq_ok_iff.mp effect
    cases same
    exact Nat.zero_le _
  | invokeStatic method =>
    have typed : method.descriptor = "()V" := plain
    simp only [Insn.stackEffect, typed, Descriptor.methodSlots_void] at effect
    cases effect
    exact Nat.zero_le 1
  | invokeSpecial method =>
    have typed : method.descriptor = "()V" := plain
    simp only [Insn.stackEffect, typed, Descriptor.methodSlots_void] at effect
    cases effect
    exact Nat.zero_le 2
  | _ =>
    cases effect
    decide

end Insn.Plain

private theorem one_le_localSize (slot : UInt16) : 1 ≤ Insn.localSize slot := by
  unfold Insn.localSize
  split
  · exact Nat.le_refl 1
  · split <;> omega

private theorem one_le_pushSize (value : Int32) : 1 ≤ Insn.pushSize value := by
  unfold Insn.pushSize
  simp only
  split
  · exact Nat.le_refl 1
  · split <;> omega

namespace Code

theorem length_le_maxSize (insns : List Insn) : insns.length ≤ maxSize insns := by
  induction insns with
  | nil => exact Nat.le_refl 0
  | cons insn rest ih =>
    have one_byte : 1 ≤ insn.maxSize := by
      cases insn with
      | aload slot | iload slot | istore slot => exact one_le_localSize slot
      | pushInt value => exact one_le_pushSize value
      | _ => exact Nat.le_of_ble_eq_true rfl
    rw [List.length_cons, maxSize_cons]
    omega

/-- Plain instructions that run through leave no more operands than there are instructions. -/
theorem depths_le {insns : List Insn} (plain : ∀ insn ∈ insns, insn.Plain) (depth : Nat)
    (runs : (depthAfter? depth insns).isSome) :
    ∀ reached ∈ depths depth insns, reached ≤ depth + insns.length := by
  induction insns generalizing depth with
  | nil =>
    intro reached member
    contradiction
  | cons insn rest ih =>
    intro reached member
    rw [depthAfter?] at runs
    rw [depths] at member
    cases effect : insn.stackEffect with
    | error e => simp [effect] at member
    | ok counts =>
      obtain ⟨pops, pushes⟩ := counts
      have pushes_le := (plain insn List.mem_cons_self).pushes_le effect
      simp only [effect] at runs member
      split at runs
      · contradiction
      · rename_i enough
        rw [List.length_cons]
        rcases List.mem_cons.mp member with rfl | later
        · omega
        · have plain_rest := fun other inside => plain other (List.mem_cons_of_mem _ inside)
          have below := ih plain_rest _ runs reached later
          omega

end Code

/-- A method that can be written, of plain instructions and without arguments, fits. -/
theorem MethodDecl.Writable.fits {method : MethodDecl} (writable : method.Writable)
    (plain : ∀ insn ∈ method.code, insn.Plain) (typed : method.descriptor = "()V") :
    method.Fits where
  slots := by
    intro insn member slot used
    have := (plain insn member).slot_le used
    omega
  depths := by
    intro depth member
    have below := Code.depths_le plain 0 writable.runs depth member
    have short : Code.maxSize method.code ≤ 65535 := writable.short
    have length := Code.length_le_maxSize method.code
    omega
  arguments := by
    intro slots known
    simp only [MethodDecl.argumentSlots, typed, Descriptor.methodSlots_void, bind, Except.bind, pure,
      Except.pure, Except.ok.injEq] at known
    split at known <;> omega

end ClassFile

section

variable {shared : Option SharedId} {className : String}

private theorem plain_pushValue (value : Int32) :
    ∀ insn ∈ ResourceField.pushValue shared value, insn.Plain := by
  unfold ResourceField.pushValue
  cases shared with
  | none => simp [Insn.Plain]
  | some found =>
    simp only
    split <;> simp [Insn.Plain]

private theorem plain_assign (symbol : Symbol) :
    ∀ insn ∈ symbol.assign className shared, insn.Plain := by
  obtain ⟨name, value, dependency⟩ := symbol
  rw [Symbol.assign, List.forall_mem_append]
  refine ⟨?_, by simp [Insn.Plain]⟩
  cases value with
  | int n => exact plain_pushValue n
  | array values =>
    rw [Symbol.push, List.forall_mem_cons, List.forall_mem_cons]
    refine ⟨trivial, trivial, ?_⟩
    intro insn member
    obtain ⟨element, -, inside⟩ := List.mem_flatMap.mp member
    have stored : ∀ insn ∈ Symbol.storeElement shared element, insn.Plain := by
      rw [Symbol.storeElement, List.forall_mem_cons, List.forall_mem_cons, List.forall_mem_append]
      exact ⟨trivial, trivial, plain_pushValue element.1, by simp [Insn.Plain]⟩
    exact stored insn inside

private theorem plain_declare (method : InitializerMethod Symbol) :
    ∀ insn ∈ (method.declare className shared).code, insn.Plain := by
  rw [InitializerMethod.declare, List.forall_mem_append, List.forall_mem_append]
  refine ⟨?_, ?_, ?_⟩
  · cases shared <;> simp [prologue, Insn.Plain, SharedId.field]
  · intro insn member
    obtain ⟨symbol, -, inside⟩ := List.mem_flatMap.mp member
    exact plain_assign symbol insn inside
  · cases method.next <;> simp [tail, Insn.Plain, methodRef]

end

section

variable {outer directory : String} {type : ResourceType} {symbols : List Symbol}
  {config : Config} {blocks : List (Block Symbol)}

theorem annotationsFit_nil : AnnotationsFit [] :=
  ⟨by decide, by simp, by decide⟩

private theorem annotationsFit_provenance (label : String) :
    AnnotationsFit [ResourceField.provenance label] where
  few := by
    rw [List.length_singleton]
    decide
  few_elements := by
    intro note member
    rw [List.mem_singleton.mp member]
    exact Nat.le_of_ble_eq_true rfl
  short := Nat.le_of_ble_eq_true rfl

private theorem fits_constructor : Generation.constructor.Fits :=
  writable_constructor.fits (by simp [Generation.constructor, Insn.Plain]) rfl

/-- Nothing of an outer class is cut off when it is written. -/
theorem fits_outerClass (outer : String) (config : Config) (types : List ResourceType) :
    (outerClass outer config types).Fits where
  annotations := by
    unfold outerClass
    cases config.label with
    | none => exact annotationsFit_nil
    | some label =>
      dsimp only
      split
      · exact annotationsFit_provenance label
      · exact annotationsFit_nil
  fields := by
    intro field member
    contradiction
  methods := by
    intro method member
    rw [List.mem_singleton.mp member]
    exact fits_constructor

private theorem annotationsFit_declare (config : Config) (symbol : Symbol) :
    AnnotationsFit (symbol.declare config).annotations := by
  unfold Symbol.declare
  cases symbol.dependency with
  | none => exact annotationsFit_nil
  | some label =>
    simp only
    split
    · exact annotationsFit_provenance label
    · exact annotationsFit_nil

/-- Nothing of a class of a resource type is cut off when it is written. -/
theorem fits_innerClassOf
    (fits : ∀ block ∈ blocks, block.Fits (prologueSize config.sharedId.isSome)
      (Symbol.maxCodeSize config.sharedId.isSome)) :
    (innerClassOf outer type symbols config blocks).Fits where
  annotations := annotationsFit_nil
  fields := by
    intro field member
    obtain ⟨symbol, -, rfl⟩ := List.mem_map.mp member
    exact annotationsFit_declare config symbol
  methods := by
    intro method member
    have writable := writable_innerClassOf outer type symbols config fits method member
    rcases List.mem_cons.mp member with rfl | chained
    · exact fits_constructor
    · obtain ⟨planned, -, rfl⟩ := List.mem_map.mp chained
      exact writable.fits (plain_declare planned) rfl

end

namespace Machine

/-- A class that is read as it was declared has the same static code and fields. -/
theorem Program.ofFile_eq {decl : ClassDecl} {file : ClassFile} (same : decl.ReadAs file)
    (held? : MemberRef → Option Value) : Program.ofFile file held? = Program.ofDecl decl held? := by
  have methods := List.rel_filter
    (p := fun method : MethodDecl => isStatic method.access)
    (q := fun member : Member => isStatic member.access)
    (fun _ _ read => iff_of_eq (congrArg (isStatic · = true) read.access.symm)) same.methods
  have fields := List.rel_filter
    (p := fun field : FieldDecl => isStatic field.access)
    (q := fun member : Member => isStatic member.access)
    (fun _ _ read => iff_of_eq (congrArg (isStatic · = true) read.access.symm)) same.fields
  unfold Program.ofFile Program.ofDecl
  rw [same.name]
  congr 1
  · refine map_eq_of_forall₂ methods ?_
    intro method member read
    obtain ⟨code, only, body⟩ := read.code
    have found : member.code? = some code := by
      rw [Member.code?, only]
      rfl
    rw [read.name, read.descriptor, found, ← body.instructions]
  · refine map_eq_of_forall₂ fields ?_
    intro field member read
    rw [read.name, read.descriptor]
  · refine filterMap_eq_of_forall₂ fields ?_
    intro field member read
    rw [read.name, read.descriptor, read.constant]

end Machine

end ResourceClasses
