import ResourceClasses.ClassFile.Parse
import ResourceClasses.Proofs.ClassFile.Pool
import ResourceClasses.Proofs.ClassFile.Reads
import ResourceClasses.Proofs.Text.ModifiedUtf8

/-!
The bytes of a constant pool that a writer filled: reading them fills the same pool again.
-/

set_option autoImplicit false

namespace ResourceClasses.ClassFile

open Reader

/-- A constant is read back from its bytes, at whatever index it stands. -/
theorem reads_constant {constant : Constant} (short : constant.textLength ≤ maxCount)
    (index : Nat) : Reads (readConstant index) constant.bytes constant := by
  cases constant with
  | utf8 text =>
    have small : (Text.ModifiedUtf8.encode text).length < 0x10000 := Nat.lt_succ_of_le short
    refine (Reads.byte 1).bind ((Reads.count small).bind ((Reads.take _).bind_nil ?_))
    rw [Text.ModifiedUtf8.decode?_encode]
    exact Reads.pure _
  | integer value =>
    exact (Reads.byte 3).bind ((Reads.fourBytes value.toUInt32).bind_nil (Reads.pure _))
  | float bits => exact (Reads.byte 4).bind ((Reads.fourBytes bits).bind_nil (Reads.pure _))
  | long value =>
    exact (Reads.byte 5).bind ((Reads.eightBytes value.toUInt64).bind_nil (Reads.pure _))
  | double bits => exact (Reads.byte 6).bind ((Reads.eightBytes bits).bind_nil (Reads.pure _))
  | classInfo name => exact (Reads.byte 7).bind ((Reads.twoBytes name).bind_nil (Reads.pure _))
  | string text => exact (Reads.byte 8).bind ((Reads.twoBytes text).bind_nil (Reads.pure _))
  | fieldRef owner selector =>
    exact (Reads.byte 9).bind ((Reads.twoBytes owner).bind
      ((Reads.twoBytes selector).bind_nil (Reads.pure _)))
  | methodRef owner selector =>
    exact (Reads.byte 10).bind ((Reads.twoBytes owner).bind
      ((Reads.twoBytes selector).bind_nil (Reads.pure _)))
  | interfaceMethodRef owner selector =>
    exact (Reads.byte 11).bind ((Reads.twoBytes owner).bind
      ((Reads.twoBytes selector).bind_nil (Reads.pure _)))
  | nameAndType name descriptor =>
    exact (Reads.byte 12).bind ((Reads.twoBytes name).bind
      ((Reads.twoBytes descriptor).bind_nil (Reads.pure _)))

private theorem exists_total_width (constant : Constant) (later : List Constant) :
    ∃ n, total ((constant :: later).map Constant.width) = n + 1 := by
  refine ⟨constant.width - 1 + total (later.map Constant.width), ?_⟩
  have positive : 0 < constant.width := by
    unfold Constant.width
    split <;> omega
  rw [List.map_cons, total_cons]
  omega

/-- The constants of a list fill their slots one after the other. -/
theorem reads_fillPool {constants : List Constant}
    (short : ∀ constant ∈ constants, constant.textLength ≤ maxCount) (pool : ConstantPool) :
    Reads (fillPool (total (constants.map Constant.width)) pool)
      (constants.flatMap Constant.bytes) (constants.foldl ConstantPool.append pool) := by
  induction constants generalizing pool with
  | nil => exact Reads.pure pool
  | cons constant later ih =>
    have short_later : ∀ other ∈ later, other.textLength ≤ maxCount := by
      intro other member
      exact short other (List.mem_cons_of_mem _ member)
    have first := reads_constant (short constant List.mem_cons_self) pool.count
    have rest := ih short_later (pool.append constant)
    rw [List.map_cons, total_cons, List.flatMap_cons, List.foldl_cons]
    cases wide : constant.isWide with
    | true =>
      rw [Constant.width, if_pos wide, Nat.add_comm]
      refine first.bind ?_
      rw [wide]
      exact rest
    | false =>
      rw [Constant.width, wide]
      cases later with
      | nil => exact first.bind (Reads.pure _)
      | cons second last =>
        obtain ⟨n, slots⟩ := exists_total_width second last
        rw [slots] at rest ⊢
        rw [Nat.add_comm]
        refine first.bind ?_
        rw [wide]
        exact rest

namespace ConstantPool

private theorem length_flatMap_slotsOf (constants : List Constant) :
    (constants.flatMap slotsOf).length = total (constants.map Constant.width) := by
  induction constants with
  | nil => rfl
  | cons constant later ih =>
    rw [List.flatMap_cons, List.length_append, ih, List.map_cons, total_cons]
    unfold slotsOf Constant.width
    split <;> rfl

/-- The bytes of a slot: those of the constant that starts there. -/
def slotBytes : Option Constant → List UInt8
  | some constant => constant.bytes
  | none => []

private theorem bytes_slotsOf (constants : List Constant) :
    (constants.flatMap slotsOf).flatMap slotBytes = constants.flatMap Constant.bytes := by
  induction constants with
  | nil => rfl
  | cons constant later ih =>
    rw [List.flatMap_cons, List.flatMap_append, ih, List.flatMap_cons]
    unfold slotsOf
    split <;> simp [slotBytes]

/-- A filled pool is read back from its bytes. -/
theorem Filled.reads {pool : ConstantPool} (filled : pool.Filled) :
    Reads readPool pool.bytes pool := by
  obtain ⟨constants, folded, slots, _, _, short⟩ := filled.exists_constants
  have count : pool.count = total (constants.map Constant.width) + 1 := by
    rw [ConstantPool.count, ← Array.length_toList, slots, List.length_cons,
      length_flatMap_slotsOf]
  have below : pool.count ≤ 65535 := filled.count_le
  have bytes : pool.bytes = bigEndian 2 pool.count ++ constants.flatMap Constant.bytes := by
    change bigEndian 2 pool.count ++ pool.slots.toList.flatMap slotBytes = _
    rw [slots, List.flatMap_cons, bytes_slotsOf]
    rfl
  rw [bytes]
  refine (Reads.count (Nat.lt_succ_of_le below)).bind ?_
  rw [count, Nat.add_sub_cancel]
  have whole := reads_fillPool short ConstantPool.empty
  rwa [← folded] at whole

end ConstantPool

end ResourceClasses.ClassFile
