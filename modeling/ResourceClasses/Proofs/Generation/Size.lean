import ResourceClasses.Proofs.ClassFile.Progress
import ResourceClasses.Proofs.Generation.Initialization

/-!
The size and the stack of generated code: each method of a chain takes no more bytes than it was
planned with, and its code never takes an operand off an empty stack.
-/

set_option autoImplicit false

namespace ResourceClasses

open ClassFile

namespace ResourceField

variable (shared : Option SharedId)

private theorem maxSize_pushValue (value : Int32) :
    Code.maxSize (pushValue shared value) ≤ if shared.isSome then 5 else 3 := by
  have plain : Code.maxSize [.pushInt value] ≤ 3 := by
    rw [Code.maxSize_cons]
    exact Insn.pushSize_le value
  unfold pushValue
  cases shared with
  | none => exact plain
  | some found =>
    simp only [Option.isSome_some, if_true]
    split
    · have moved : Insn.pushSize (found.offset value) ≤ 3 := Insn.pushSize_le _
      have size : Code.maxSize [.iload 1, .pushInt (found.offset value), .iadd] =
          1 + (Insn.pushSize (found.offset value) + 1) := by
        rw [Code.maxSize_cons, Code.maxSize_cons]
        rfl
      omega
    · omega

theorem depthAfter?_pushValue (value : Int32) (depth : Nat) (rest : List Insn) :
    Code.depthAfter? depth (pushValue shared value ++ rest) =
      Code.depthAfter? (depth + 1) rest := by
  unfold pushValue
  cases shared with
  | none => rfl
  | some found =>
    simp only
    split
    · exact Code.depthAfter?_cons (rfl : Insn.iadd.stackEffect = .ok (2, 1)) depth rest
    · rfl

end ResourceField

namespace Symbol

variable (shared : Option SharedId)

private theorem maxSize_storeElements (elements : List (Int32 × Nat)) :
    Code.maxSize (elements.flatMap (storeElement shared)) ≤
      (if shared.isSome then 10 else 8) * elements.length := by
  induction elements with
  | nil => exact Nat.le_refl 0
  | cons element later ih =>
    have index := Insn.pushSize_le (Int32.ofNat element.2)
    have value := ResourceField.maxSize_pushValue shared element.1
    have size : Code.maxSize (storeElement shared element) =
        1 + (Insn.pushSize (Int32.ofNat element.2) +
          (Code.maxSize (ResourceField.pushValue shared element.1) + 1)) := by
      rw [storeElement, Code.maxSize_cons, Code.maxSize_cons, Code.maxSize_append]
      rfl
    rw [List.flatMap_cons, Code.maxSize_append, size, List.length_cons, Nat.mul_succ]
    split at value <;> split at ih <;> simp_all <;> omega

/-- The code of a symbol that fits a method takes no more bytes than the symbol claims. -/
theorem maxSize_assign (className : String) (symbol : Symbol)
    (fits : symbol.maxCodeSize shared.isSome ≤ Generation.methodBudget) :
    Code.maxSize (symbol.assign className shared) ≤ symbol.maxCodeSize shared.isSome := by
  obtain ⟨name, value, dependency⟩ := symbol
  have store : ∀ field, Code.maxSize [.putStatic field] = 3 := fun _ => rfl
  rw [assign, Code.maxSize_append, store]
  cases value with
  | int n =>
    have size := ResourceField.maxSize_pushValue shared n
    simp only [push, maxCodeSize]
    split at size <;> simp_all
  | array values =>
    have elements := maxSize_storeElements shared values.zipIdx
    have length := Insn.pushSize_le (Int32.ofNat values.length)
    have size : Code.maxSize (push shared (.array values)) =
        Insn.pushSize (Int32.ofNat values.length) +
          (2 + Code.maxSize (values.zipIdx.flatMap (storeElement shared))) := by
      rw [push, Code.maxSize_cons, Code.maxSize_cons]
      rfl
    rw [List.length_zipIdx] at elements
    rw [size, (Generation.maxCodeSize_array_of_le fits).2]
    omega

private theorem depthAfter?_storeElements (elements : List (Int32 × Nat)) (depth : Nat)
    (rest : List Insn) :
    Code.depthAfter? (depth + 1) (elements.flatMap (storeElement shared) ++ rest) =
      Code.depthAfter? (depth + 1) rest := by
  induction elements with
  | nil => rfl
  | cons element later ih =>
    rw [List.flatMap_cons, List.append_assoc, storeElement, List.cons_append, List.cons_append,
      List.append_assoc]
    refine (Code.depthAfter?_cons (rfl : Insn.dup.stackEffect = .ok (1, 2)) depth _).trans ?_
    change Code.depthAfter? (depth + 3) (ResourceField.pushValue shared element.1 ++ _) = _
    rw [ResourceField.depthAfter?_pushValue]
    refine Eq.trans ?_ ih
    exact Code.depthAfter?_cons (rfl : Insn.iastore.stackEffect = .ok (3, 0)) (depth + 1) _

private theorem stackEffect_putStatic (className name : String) (value : SymbolValue) :
    (Insn.putStatic ((⟨name, value, none⟩ : Symbol).field className)).stackEffect =
      .ok (1, 0) := by
  cases value with
  | int n =>
    simp only [Insn.stackEffect, Symbol.field, descriptor, Descriptor.fieldSlots_int]
    rfl
  | array values =>
    simp only [Insn.stackEffect, Symbol.field, descriptor, Descriptor.fieldSlots_intArray]
    rfl

/-- The code of a symbol takes off the stack what it puts on it. -/
theorem depthAfter?_assign (className : String) (symbol : Symbol) (depth : Nat)
    (rest : List Insn) :
    Code.depthAfter? depth (symbol.assign className shared ++ rest) =
      Code.depthAfter? depth rest := by
  obtain ⟨name, value, dependency⟩ := symbol
  rw [assign, List.append_assoc]
  cases value with
  | int n =>
    rw [push, ResourceField.depthAfter?_pushValue]
    exact Code.depthAfter?_cons (stackEffect_putStatic className name (.int n)) depth rest
  | array values =>
    have made := Code.depthAfter?_cons (rfl : Insn.newIntArray.stackEffect = .ok (1, 1)) depth
      (values.zipIdx.flatMap (storeElement shared) ++
        (.putStatic ⟨className, name, "[I"⟩ :: rest))
    rw [depthAfter?_storeElements] at made
    refine Eq.trans made ?_
    exact Code.depthAfter?_cons (stackEffect_putStatic className name (.array values)) depth rest

end Symbol

/-- Whether an error is about the code of a method, not about names or the pool. -/
def ClassFile.FormatError.BlamesCode : FormatError → Prop
  | codeTooLarge _ _ | stackUnderflow _ _ | invalidDescriptor _ => True
  | _ => False

theorem ClassFile.ConstantPool.Refuses.not_blamesCode {pool : ConstantPool}
    {entries : Entry → Prop} {e : FormatError} (refuses : pool.Refuses entries e) :
    ¬e.BlamesCode := by
  cases refuses with
  | tooLong wanted long => exact id
  | full crowded => exact id

theorem ClassFile.ClassDecl.Refused.not_blamesCode {decl : ClassDecl} {e : FormatError}
    (refused : decl.Refused e) : ¬e.BlamesCode := by
  cases refused with
  | tooLong listed long => exact id
  | full many => exact id

/-- Whether writing a body ends with at most so many bytes, or with an error about something
else. -/
def ClassFile.Code.WrittenWithin (limit : Nat) :
    EStateM.Result FormatError ConstantPool Code.Encoded → Prop
  | .ok encoded _ => encoded.bytes.length ≤ limit
  | .error e _ => ¬e.BlamesCode

namespace Generation

section

variable (className : String) (shared : Option SharedId)

private theorem maxSize_assignments (symbols : List Symbol)
    (fits : total (symbols.map (Symbol.maxCodeSize shared.isSome)) ≤ methodBudget) :
    Code.maxSize (symbols.flatMap (ResourceField.assign className shared)) ≤
      total (symbols.map (Symbol.maxCodeSize shared.isSome)) := by
  induction symbols with
  | nil => exact Nat.le_refl 0
  | cons symbol later ih =>
    rw [List.map_cons, total_cons] at fits
    have first : Code.maxSize (ResourceField.assign className shared symbol) ≤
        symbol.maxCodeSize shared.isSome :=
      Symbol.maxSize_assign shared className symbol (by omega)
    have others := ih (by omega)
    rw [List.flatMap_cons, Code.maxSize_append, List.map_cons, total_cons]
    omega

private theorem depthAfter?_assignments (symbols : List Symbol) (rest : List Insn) :
    Code.depthAfter? 0 (symbols.flatMap (ResourceField.assign className shared) ++ rest) =
      Code.depthAfter? 0 rest := by
  induction symbols with
  | nil => rfl
  | cons symbol later ih =>
    rw [List.flatMap_cons, List.append_assoc]
    exact (Symbol.depthAfter?_assign shared className symbol 0 _).trans ih

private theorem depthAfter?_prologue (rest : List Insn) :
    Code.depthAfter? 0 (prologue shared ++ rest) = Code.depthAfter? 0 rest := by
  cases shared with
  | none => rfl
  | some found =>
    have effect : (Insn.getStatic found.field).stackEffect = .ok (0, 1) := by
      simp only [Insn.stackEffect, SharedId.field, Descriptor.fieldSlots_int]
      rfl
    refine (Code.depthAfter?_cons effect 0 _).trans ?_
    exact Code.depthAfter?_cons (rfl : (Insn.istore 1).stackEffect = .ok (1, 0)) 0 rest

private theorem depthAfter?_tail (next : Option Nat) :
    Code.depthAfter? 0 (tail className next) = some 0 := by
  cases next with
  | none => rfl
  | some ordinal =>
    have effect : (Insn.invokeStatic (methodRef className ordinal)).stackEffect = .ok (0, 0) := by
      simp only [Insn.stackEffect, methodRef, Descriptor.methodSlots_void]
    exact (Code.depthAfter?_cons effect 0 _).trans rfl

private theorem maxSize_tail (next : Option Nat) :
    Code.maxSize (tail className next) ≤ tailSize := by
  cases next with
  | none => exact Nat.le_of_ble_eq_true rfl
  | some ordinal => exact Nat.le_refl 4

/-- The code of a method takes what was planned for it and the bytes of its tail. -/
theorem maxSize_declare {method : InitializerMethod Symbol}
    (planned : method.codeSize = prologueSize shared.isSome +
      total (method.fields.map (Symbol.maxCodeSize shared.isSome)))
    (fits : method.codeSize + tailSize ≤ maxCodeSize) :
    Code.maxSize (method.declare className shared).code ≤ method.codeSize + tailSize := by
  have start : Code.maxSize (prologue shared) = prologueSize shared.isSome := by
    cases shared <;> rfl
  have room : total (method.fields.map (Symbol.maxCodeSize shared.isSome)) ≤ methodBudget := by
    rw [methodBudget]
    omega
  have assignments := maxSize_assignments className shared method.fields room
  have last := maxSize_tail className method.next
  simp only [InitializerMethod.declare, Code.maxSize_append]
  omega

theorem depthAfter?_declare (method : InitializerMethod Symbol) :
    Code.depthAfter? 0 (method.declare className shared).code = some 0 := by
  rw [InitializerMethod.declare, depthAfter?_prologue, depthAfter?_assignments, depthAfter?_tail]

end

variable {outer directory : String} {type : ResourceType} {symbols : List Symbol}
  {config : Config} {decl : ClassDecl}

private theorem planned_size {prologue : Nat} {size : Symbol → Nat} {blocks : List (Block Symbol)}
    (fits : ∀ block ∈ blocks, block.Fits prologue size) {method : InitializerMethod Symbol}
    (member : method ∈ link blocks) :
    method.codeSize = prologue + total (method.fields.map size) ∧
      method.codeSize + tailSize ≤ maxCodeSize := by
  obtain ⟨block, inside, size_eq, fields_eq⟩ := exists_block_of_mem_linkAfter member
  have fit := fits block inside
  have size_le : block.size ≤ maxCodeSize - tailSize := fit.size_le
  have small : tailSize ≤ maxCodeSize := by decide
  rw [size_eq, fields_eq]
  exact ⟨fit.size_eq, by omega⟩

theorem writable_constructor : Generation.constructor.Writable where
  arguments := ⟨1, rfl⟩
  runs := by decide
  short := by decide

theorem writable_innerClassOf (outer : String) (type : ResourceType)
    (symbols : List Symbol) (config : Config) {blocks : List (Block Symbol)}
    (fits : ∀ block ∈ blocks, block.Fits (prologueSize config.sharedId.isSome)
      (Symbol.maxCodeSize config.sharedId.isSome)) :
    ∀ method ∈ (innerClassOf outer type symbols config blocks).methods, method.Writable := by
  intro method member
  rcases List.mem_cons.mp member with rfl | chained
  · exact writable_constructor
  · obtain ⟨planned, inside, rfl⟩ := List.mem_map.mp chained
    obtain ⟨size_eq, size_le⟩ := planned_size fits inside
    have within := maxSize_declare (Name.inner outer type) config.sharedId size_eq size_le
    have runs := depthAfter?_declare (Name.inner outer type) config.sharedId planned
    refine ⟨?_, by rw [runs]; rfl, Nat.le_trans within size_le⟩
    simp only [MethodDecl.argumentSlots, InitializerMethod.declare, Descriptor.methodSlots_void]
    exact ⟨_, rfl⟩

private theorem not_blamesCode_of_tooMany? {e : FormatError} (many : decl.tooMany? = some e) :
    ¬e.BlamesCode := by
  unfold ClassDecl.tooMany? at many
  split at many
  · cases many
    exact id
  · split at many
    · cases many
      exact id
    · split at many
      · cases many
        exact id
      · contradiction

/-- Each method of the chain of a class takes at most four bytes more than was planned for it, which
is never too many, and the class is never refused because of the code of its methods. -/
theorem innerClass_code_within
    (done : innerClass outer type symbols directory config = .ok decl) :
    (∃ methods,
      plan decl.name config.sharedId.isSome (symbols.filter (Symbol.isAssigned config)) =
        .ok methods ∧
      decl.methods = Generation.constructor :: methods.map (·.declare decl.name config.sharedId) ∧
      ∀ method ∈ methods, method.codeSize + 4 ≤ 65535 ∧
        ∀ name argumentSlots pool, ConstantPool.Linked pool →
          Code.WrittenWithin (method.codeSize + 4)
            (Code.encode name argumentSlots (method.declare decl.name config.sharedId).code pool)) ∧
    ∀ e, decl.toBytes = .error e → ¬e.BlamesCode := by
  obtain ⟨blocks, cutting, rfl⟩ := innerClass_ok done
  have fits := (cut_fits (addable_symbols _ _) cutting).1
  constructor
  · refine ⟨link blocks, ?_, rfl, ?_⟩
    · rw [← deferred_eq_filter, plan, cutting]
    · intro method member
      obtain ⟨size_eq, size_le⟩ := planned_size fits member
      refine ⟨size_le, ?_⟩
      intro name argumentSlots pool linked
      have within := maxSize_declare (Name.inner outer type) config.sharedId size_eq size_le
      have runs := depthAfter?_declare (Name.inner outer type) config.sharedId method
      have ended : Pooled.Ends (fun _ => True) _ (Code.encode name argumentSlots
          (method.declare (Name.inner outer type) config.sharedId).code pool) :=
        Code.asks_encode (fun _ _ _ _ => trivial) (by rw [runs]; rfl)
          (Nat.le_trans within size_le) pool linked.filled linked.covered
      change Code.WrittenWithin _ (Code.encode name argumentSlots
        (method.declare (Name.inner outer type) config.sharedId).code pool)
      cases result : Code.encode name argumentSlots
          (method.declare (Name.inner outer type) config.sharedId).code pool with
      | ok encoded later =>
        rw [result] at ended
        exact Nat.le_trans ended.2.2 within
      | error e last =>
        rw [result] at ended
        exact ended.not_blamesCode
  · intro e failed
    cases few : (innerClassOf outer type symbols config blocks).tooMany? with
    | some refusal =>
      simp only [ClassDecl.toBytes, few, Except.error.injEq] at failed
      rw [← failed]
      exact not_blamesCode_of_tooMany? few
    | none =>
      have writable := writable_innerClassOf outer type symbols config fits
      rcases ClassDecl.toBytes_ok_or_refused few writable with ⟨bytes, written⟩ | ⟨_, same, refused⟩
      · rw [written] at failed
        contradiction
      · rw [same, Except.error.injEq] at failed
        rw [← failed]
        exact refused.not_blamesCode

theorem innerClass_code_within_owned :
    ∃ decl, innerClass "a/R" .id ownedSymbols "out" ownedConfig = .ok decl ∧
      (∃ method ∈ decl.methods, method.name = "<clinit>" ∧
        Code.WrittenWithin 44 (Code.encode "<clinit>" 0 method.code .empty)) ∧
      ∀ e, decl.toBytes = .error e → ¬e.BlamesCode := by
  have done : innerClass "a/R" .id ownedSymbols "out" ownedConfig =
      .ok (innerClassOf "a/R" .id ownedSymbols ownedConfig [⟨40, ownedSymbols⟩]) := by
    rfl
  obtain ⟨⟨methods, planned, same, within⟩, never⟩ := innerClass_code_within done
  have first : plan "a/R$id" true ownedSymbols = .ok [⟨0, 40, 0, ownedSymbols, none⟩] := by rfl
  have only : methods = [⟨0, 40, 0, ownedSymbols, none⟩] := Except.ok.inj (planned.symm.trans first)
  rw [only] at within
  refine ⟨_, done, ⟨_, List.mem_cons_of_mem _ List.mem_cons_self, rfl, ?_⟩, never⟩
  exact (within _ List.mem_cons_self).2 "<clinit>" 0 .empty ConstantPool.linked_empty

end Generation

end ResourceClasses
