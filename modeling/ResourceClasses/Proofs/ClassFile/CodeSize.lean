import ResourceClasses.Proofs.ClassFile.Decoding
import ResourceClasses.Proofs.ClassFile.Progress
import ResourceClasses.Proofs.ClassFile.StackDepth

/-!
The size of code: an instruction takes as many bytes as it claims, except that one which pushes a
constant saves a byte where the index of the constant fits into one. A method body is therefore as
long as its instructions claim, less one byte for each of these pushes.

Main statement: `encode_size`.
-/

set_option autoImplicit false

namespace ResourceClasses.ClassFile

open Pooled

variable {pool later final : ConstantPool}

theorem ConstantPool.mem_toList {index : Nat} {constant : Constant} :
    (index, constant) ∈ pool.toList ↔ pool.slots[index]? = some (some constant) := by
  simp [toList, List.mk_mem_zipIdx_iff_getElem?]

namespace Insn

/-- Whether an instruction pushes an int of more than two bytes that a pool has at an index of one
byte. -/
def isLowPush (pool : ConstantPool) : Insn → Bool
  | pushInt value =>
    !(-32768 ≤ value.toInt ∧ value.toInt ≤ 32767) &&
      pool.toList.any fun (index, constant) => index ≤ 255 ∧ constant = .integer value
  | _ => false

theorem isLowPush_pushInt {value : Int32} :
    (pushInt value).isLowPush pool = true ↔
      ¬(-32768 ≤ value.toInt ∧ value.toInt ≤ 32767) ∧
        ∃ index : UInt16, index.toNat ≤ 255 ∧ pool.get? index = some (.integer value) := by
  simp only [isLowPush, Bool.and_eq_true, Bool.not_eq_true', decide_eq_false_iff_not,
    List.any_eq_true, decide_eq_true_eq]
  refine and_congr_right fun _ => ⟨?_, ?_⟩
  · rintro ⟨⟨index, constant⟩, member, low, rfl⟩
    have place : (UInt16.ofNat index).toNat = index := by
      rw [UInt16.toNat_ofNat', Nat.mod_eq_of_lt (by omega)]
    refine ⟨UInt16.ofNat index, by rwa [place], ?_⟩
    rw [ConstantPool.get?, place, ConstantPool.mem_toList.mp member]
    rfl
  · rintro ⟨index, low, found⟩
    rw [ConstantPool.get?, Option.join_eq_some_iff] at found
    exact ⟨(index.toNat, .integer value), ConstantPool.mem_toList.mpr found, low, rfl⟩

/-- Where constants are found at their first index, it decides whether a push is a low one. -/
theorem isLowPush_iff_of_indices {value : Int32} {index : UInt16} (indexed : pool.Indexed)
    (wide : ¬(-32768 ≤ value.toInt ∧ value.toInt ≤ 32767))
    (known : pool.indices[Constant.integer value]? = some index) :
    (pushInt value).isLowPush pool = true ↔ index.toNat ≤ 255 := by
  rw [isLowPush_pushInt]
  constructor
  · rintro ⟨-, other, low, there⟩
    obtain ⟨first, found, le⟩ := indexed.first_le other _ there
    rw [known, Option.some.injEq] at found
    rw [found]
    exact Nat.le_trans le low
  · intro low
    exact ⟨wide, index, low, indexed.get?_of_indices _ index known⟩

private theorem length_pushBytes {value : Int32} {bytes : List UInt8}
    (written : pushBytes value pool = .ok bytes later) (grown : later.Grown final)
    (indexed : final.Indexed) :
    bytes.length + ((pushInt value).isLowPush final).toNat = pushSize value := by
  by_cases short : -32768 ≤ value.toInt ∧ value.toInt ≤ 32767
  · have not_low : (pushInt value).isLowPush final = false := by
      rw [Bool.eq_false_iff, Ne, isLowPush_pushInt]
      exact fun low => low.1 short
    rw [not_low]
    simp only [pushBytes, if_pos short] at written
    unfold pushSize
    split at written
    · rename_i small
      cases written
      simp only [if_pos small]
      rfl
    · rename_i not_small
      split at written
      · rename_i byte
        cases written
        simp only [if_neg not_small, if_pos byte]
        rfl
      · rename_i not_byte
        cases written
        simp only [if_neg not_small, if_neg not_byte, List.length_cons, length_bigEndian]
        rfl
  · have not_small : ¬(-1 ≤ value.toInt ∧ value.toInt ≤ 5) := by omega
    have not_byte : ¬(-128 ≤ value.toInt ∧ value.toInt ≤ 127) := by omega
    simp only [pushBytes, if_neg not_small, if_neg not_byte, if_neg short] at written
    obtain ⟨index, middle, added, rest⟩ := exists_of_bind_ok written
    cases rest
    have known := grown.indices (ConstantPool.indices_of_intern added)
    have low_iff := isLowPush_iff_of_indices indexed short known
    simp only [pushSize, if_neg not_small, if_neg not_byte]
    split
    · rename_i low
      rw [low_iff.mpr low]
      rfl
    · rename_i high
      rw [Bool.eq_false_iff.mpr fun low => high (low_iff.mp low)]
      rfl

/-- An instruction is written to as many bytes as it claims, or to one fewer for a low push; what
is added to the pool later changes nothing in that. -/
theorem length_encode {insn : Insn} {bytes : List UInt8}
    (written : insn.encode pool = .ok bytes later) (grown : later.Grown final)
    (indexed : final.Indexed) :
    bytes.length + (insn.isLowPush final).toNat = insn.maxSize := by
  cases insn with
  | aload slot | iload slot | istore slot =>
    cases written
    exact length_localBytes _ _ slot
  | pushInt value => exact length_pushBytes written grown indexed
  | iadd | dup | newIntArray | iastore | returnVoid =>
    cases written
    rfl
  | getStatic member | putStatic member | invokeStatic member | invokeSpecial member =>
    obtain ⟨index, middle, -, rest⟩ := exists_of_bind_ok written
    cases rest
    rfl

end Insn

namespace Code

theorem Advances.grown {progress last : Progress} {insns : List Insn}
    (advances : Advances progress pool insns last final) : pool.Grown final := by
  induction advances with
  | nil => exact .refl
  | @cons _ _ insn _ _ _ _ pool middle _ _ _ written _ ih =>
    have first := insn.interns_encode.grown pool
    rw [after_of_ok written] at first
    exact first.trans ih

theorem Advances.length_written {progress last : Progress} {insns : List Insn}
    (advances : Advances progress pool insns last final) (indexed : final.Indexed) :
    last.written.flatten.length + insns.countP (·.isLowPush final) =
      progress.written.flatten.length + maxSize insns := by
  induction advances with
  | nil => rfl
  | @cons progress _ insn rest pops pushes bytes _ _ final _ _ written later ih =>
    have size := Insn.length_encode written later.grown indexed
    have rest_size := ih indexed
    have first : (progress.add insn pops pushes bytes).written = bytes :: progress.written := rfl
    rw [first, List.flatten_cons, List.length_append] at rest_size
    have count : (insn :: rest).countP (·.isLowPush final) =
        rest.countP (·.isLowPush final) + (insn.isLowPush final).toNat := by
      rw [List.countP_cons]
      cases insn.isLowPush final <;> rfl
    rw [count, maxSize_cons]
    omega

/-- An instruction that is written takes as many bytes as it claims, and one fewer exactly if it
pushes an int of more than two bytes whose constant is at an index of one byte. So a body is as long
as its instructions claim, less one byte for each of these pushes, and never longer. -/
theorem encode_size (stocked : Stocked pool) :
    (∀ (insn : Insn) (bytes : List UInt8) (later : ConstantPool),
      insn.encode pool = .ok bytes later →
        bytes.length + (insn.isLowPush later).toNat = insn.maxSize) ∧
    ∀ (method : String) (argumentSlots : Nat) (insns : List Insn) (encoded : Encoded)
      (later : ConstantPool), encode method argumentSlots insns pool = .ok encoded later →
        encoded.bytes.length + insns.countP (·.isLowPush later) = maxSize insns ∧
          encoded.bytes.length ≤ maxSize insns := by
  constructor
  · intro insn bytes later written
    have grown := insn.interns_encode.grown pool
    rw [after_of_ok written] at grown
    exact Insn.length_encode written .refl (grown.indexed stocked.indexed)
  · intro method argumentSlots insns encoded later done
    obtain ⟨last, advances, body⟩ := exists_progress done
    have size := advances.length_written (advances.grown.indexed stocked.indexed)
    have start : (Progress.start argumentSlots).written.flatten.length = 0 := rfl
    have bytes : encoded.bytes.length = last.written.flatten.length := by
      rw [body]
      exact length_flatten_reverse last.written
    rw [start, ← bytes] at size
    exact ⟨by omega, by omega⟩

/-- The push of a million, whose constant comes third, is the one that saves a byte. -/
theorem encode_size_storeMillion :
    Stocked wideFirst ∧ maxSize storeMillion = 8 ∧ ∃ encoded later,
      encode "m" 0 storeMillion wideFirst = .ok encoded later ∧ encoded.bytes.length = 7 ∧
        storeMillion.countP (·.isLowPush later) = 1 := by
  have stocked : Stocked wideFirst := .called .empty (.intern (.long 7))
  have claimed : maxSize storeMillion = 8 := by decide
  obtain ⟨size, -⟩ := (encode_size stocked).2 "m" 0 storeMillion _ _ storeMillion_encoded
  refine ⟨stocked, claimed, _, _, storeMillion_encoded, rfl, ?_⟩
  rw [claimed] at size
  exact Nat.add_left_cancel (size.trans (rfl : 8 = 7 + 1))

end Code

end ResourceClasses.ClassFile
