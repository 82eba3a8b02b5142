import ResourceClasses.ClassFile.Instruction
import ResourceClasses.Proofs.ClassFile.Lookup

/-!
Instructions and their bytes: an instruction is read back from its bytes against every pool that
the one it was written with grows to.
-/

set_option autoImplicit false

namespace ResourceClasses.ClassFile.Insn

open Pooled

/-- Whether some bytes are read as an instruction that takes all of them, whatever follows. -/
def Spells (insn : Insn) (pool : ConstantPool) (bytes : List UInt8) : Prop :=
  ∀ offset rest, decode pool offset (bytes ++ rest) = .ok (insn, bytes.length)

section

variable {pool : ConstantPool} {index : UInt16}

private theorem word_bytes (n : Nat) :
    bigEndian 2 n = [UInt8.ofNat (n / 256), UInt8.ofNat n] := by
  simp [bigEndian]

theorem wordAt_word16 (offset : Nat) (n : UInt16) (rest : List UInt8) :
    wordAt offset (word16 n ++ rest) = .ok n := by
  have bound := n.toNat_lt
  have value : UInt16.ofNat (256 * (UInt8.ofNat (n.toNat / 256)).toNat +
      (UInt8.ofNat n.toNat).toNat) = n := by
    apply UInt16.toNat_inj.mp
    simp only [UInt16.toNat_ofNat', UInt8.toNat_ofNat']
    omega
  rw [word16, word_bytes]
  change Except.ok _ = _
  rw [value]

private theorem eq_of_toNat_le_three {slot : UInt16} (small : slot.toNat ≤ 3) :
    slot = 0 ∨ slot = 1 ∨ slot = 2 ∨ slot = 3 := by
  simp only [← UInt16.toNat_inj]
  change slot.toNat = 0 ∨ slot.toNat = 1 ∨ slot.toNat = 2 ∨ slot.toNat = 3
  omega

private theorem toUInt16_toUInt8 {n : UInt16} (small : n.toNat ≤ 255) :
    n.toUInt8.toUInt16 = n := by
  apply UInt16.toNat_inj.mp
  rw [UInt8.toNat_toUInt16, UInt16.toNat_toUInt8]
  omega

/-- The forms of an instruction on a local slot: four short ones, one with a byte and one with a
word. -/
private theorem spells_local {make : UInt16 → Insn} {short long : UInt8}
    (short_form : ∀ slot ∈ [0, 1, 2, 3], ∀ offset rest,
      decode pool offset (UInt8.ofNat (short.toNat + slot.toNat) :: rest) = .ok (make slot, 1))
    (byte_form : ∀ offset slot rest,
      decode pool offset (long :: slot :: rest) = .ok (make slot.toUInt16, 2))
    (wide_form : ∀ offset rest,
      decode pool offset (0xc4 :: long :: rest) =
        do .ok (make (← wordAt (offset + 2) rest), 4))
    (slot : UInt16) : (make slot).Spells pool (localBytes short long slot) := by
  intro offset rest
  unfold localBytes
  split
  · rename_i small
    have listed : slot ∈ [0, 1, 2, 3] := by
      simpa using eq_of_toNat_le_three small
    exact short_form slot listed offset rest
  · split
    · rename_i fits
      have spelled := byte_form offset slot.toUInt8 rest
      rwa [toUInt16_toUInt8 fits] at spelled
    · have spelled := wide_form offset (word16 slot ++ rest)
      rwa [wordAt_word16] at spelled

theorem spells_aload (slot : UInt16) : (aload slot).Spells pool (localBytes 0x2a 0x19 slot) := by
  refine spells_local ?_ (fun _ _ _ => rfl) (fun _ _ => rfl) slot
  simp only [List.forall_mem_cons]
  exact ⟨fun _ _ => rfl, fun _ _ => rfl, fun _ _ => rfl, fun _ _ => rfl, by simp⟩

theorem spells_iload (slot : UInt16) : (iload slot).Spells pool (localBytes 0x1a 0x15 slot) := by
  refine spells_local ?_ (fun _ _ _ => rfl) (fun _ _ => rfl) slot
  simp only [List.forall_mem_cons]
  exact ⟨fun _ _ => rfl, fun _ _ => rfl, fun _ _ => rfl, fun _ _ => rfl, by simp⟩

theorem spells_istore (slot : UInt16) : (istore slot).Spells pool (localBytes 0x3b 0x36 slot) := by
  refine spells_local ?_ (fun _ _ _ => rfl) (fun _ _ => rfl) slot
  simp only [List.forall_mem_cons]
  exact ⟨fun _ _ => rfl, fun _ _ => rfl, fun _ _ => rfl, fun _ _ => rfl, by simp⟩

private theorem signedByte_ofNat {value : Int32} (small : -128 ≤ value.toInt ∧ value.toInt ≤ 127) :
    signedByte (UInt8.ofNat (value.toInt % 256).toNat) = value := by
  have low : ((UInt8.ofNat (value.toInt % 256).toNat).toNat : Int) = value.toInt % 256 := by
    rw [UInt8.toNat_ofNat']
    omega
  have signed : (value.toInt % 256).bmod 256 = value.toInt := by
    rw [Int.bmod_def]
    omega
  unfold signedByte
  rw [low, signed]
  exact Int32.ofInt_toInt value

private theorem signedWord_ofNat {value : Int32}
    (small : -32768 ≤ value.toInt ∧ value.toInt ≤ 32767) :
    signedWord (UInt16.ofNat (value.toInt % 65536).toNat) = value := by
  have low : ((UInt16.ofNat (value.toInt % 65536).toNat).toNat : Int) = value.toInt % 65536 := by
    rw [UInt16.toNat_ofNat']
    omega
  have signed : (value.toInt % 65536).bmod 65536 = value.toInt := by
    rw [Int.bmod_def]
    omega
  unfold signedWord
  rw [low, signed]
  exact Int32.ofInt_toInt value

private theorem decode_small {opcode : UInt8} (inside : 0x02 ≤ opcode.toNat ∧ opcode.toNat ≤ 0x08)
    (offset : Nat) (rest : List UInt8) :
    decode pool offset (opcode :: rest) =
      .ok (pushInt (Int32.ofInt ((opcode.toNat : Int) - 3)), 1) :=
  if_pos inside

/-- An int from minus one to five has an opcode of its own. -/
private theorem spells_small {value : Int32} (small : -1 ≤ value.toInt ∧ value.toInt ≤ 5) :
    (pushInt value).Spells pool [UInt8.ofNat (value.toInt + 3).toNat] := by
  intro offset rest
  have opcode : (UInt8.ofNat (value.toInt + 3).toNat).toNat = (value.toInt + 3).toNat := by
    rw [UInt8.toNat_ofNat']
    omega
  have back : (((value.toInt + 3).toNat : Nat) : Int) - 3 = value.toInt := by omega
  rw [List.singleton_append, decode_small (by omega), opcode, back, Int32.ofInt_toInt]
  rfl

private theorem spells_byte {value : Int32} (small : -128 ≤ value.toInt ∧ value.toInt ≤ 127) :
    (pushInt value).Spells pool [0x10, UInt8.ofNat (value.toInt % 256).toNat] := by
  intro offset rest
  change Except.ok (pushInt (signedByte _), 2) = _
  rw [signedByte_ofNat small]
  rfl

private theorem spells_word {value : Int32}
    (small : -32768 ≤ value.toInt ∧ value.toInt ≤ 32767) :
    (pushInt value).Spells pool (0x11 :: bigEndian 2 (value.toInt % 65536).toNat) := by
  intro offset rest
  have word : bigEndian 2 (value.toInt % 65536).toNat =
      word16 (UInt16.ofNat (value.toInt % 65536).toNat) := by
    rw [word16, UInt16.toNat_ofNat', Nat.mod_eq_of_lt (by omega)]
  change (do
    .ok (pushInt (signedWord (← wordAt (offset + 1) (bigEndian 2 _ ++ rest))), 3) :
      Except FormatError (Insn × Nat)) = _
  rw [word, wordAt_word16]
  change Except.ok (pushInt (signedWord _), 3) = _
  rw [signedWord_ofNat small]
  rfl

/-- An int of the pool is pushed through its index, in one byte or in two. -/
private theorem spells_constant {value : Int32} (found : pool.integerAt index = .ok value) :
    (pushInt value).Spells pool
      (if index.toNat ≤ 255 then [0x12, index.toUInt8] else indexed 0x13 index) := by
  intro offset rest
  split
  · rename_i fits
    change (do .ok (pushInt (← pool.integerAt index.toUInt8.toUInt16), 2) :
      Except FormatError (Insn × Nat)) = _
    rw [toUInt16_toUInt8 fits, found]
    rfl
  · change (do
      let index ← wordAt (offset + 1) (word16 index ++ rest)
      .ok (pushInt (← pool.integerAt index), 3) : Except FormatError (Insn × Nat)) = _
    rw [wordAt_word16]
    change (do .ok (pushInt (← pool.integerAt index), 3) :
      Except FormatError (Insn × Nat)) = _
    rw [found]
    rfl

private theorem spells_member {make : MemberRef → Insn} {opcode : UInt8} {ref : MemberRef}
    (form : ∀ offset rest, decode pool offset (opcode :: rest) =
      do
        let index ← wordAt (offset + 1) rest
        .ok (make (← pool.memberAt index), 3))
    (found : pool.memberAt index = .ok ref) :
    (make ref).Spells pool (indexed opcode index) := by
  intro offset rest
  have whole := form offset (word16 index ++ rest)
  rw [wordAt_word16] at whole
  change _ = (do .ok (make (← pool.memberAt index), 3) : Except FormatError (Insn × Nat)) at whole
  rw [found] at whole
  exact whole

end

private theorem yields_pushBytes (value : Int32) :
    Yields (pushBytes value) fun final bytes => (pushInt value).Spells final bytes := by
  simp only [pushBytes]
  split
  · exact .pure fun _ => spells_small ‹_›
  · split
    · exact .pure fun _ => spells_byte ‹_›
    · split
      · exact .pure fun _ => spells_word ‹_›
      · refine (ConstantPool.yields_integer value).bind ?_
        intro index
        exact .pure fun _ found => spells_constant (ConstantPool.integerAt_of_get? found)

/-- What is written for an instruction is read as the instruction. -/
theorem yields_encode (insn : Insn) :
    Yields insn.encode fun final bytes => insn.Spells final bytes := by
  cases insn with
  | aload slot => exact .pure fun _ => spells_aload slot
  | iload slot => exact .pure fun _ => spells_iload slot
  | istore slot => exact .pure fun _ => spells_istore slot
  | pushInt value => exact yields_pushBytes value
  | iadd => exact .pure fun _ _ _ => rfl
  | dup => exact .pure fun _ _ _ => rfl
  | newIntArray => exact .pure fun _ _ _ => rfl
  | iastore => exact .pure fun _ _ _ => rfl
  | getStatic field =>
    refine (ConstantPool.yields_fieldRef field).bind ?_
    intro index
    exact .pure fun _ found => spells_member (fun _ _ => rfl) found
  | putStatic field =>
    refine (ConstantPool.yields_fieldRef field).bind ?_
    intro index
    exact .pure fun _ found => spells_member (fun _ _ => rfl) found
  | invokeStatic method =>
    refine (ConstantPool.yields_methodRef method).bind ?_
    intro index
    exact .pure fun _ found => spells_member (fun _ _ => rfl) found
  | invokeSpecial method =>
    refine (ConstantPool.yields_methodRef method).bind ?_
    intro index
    exact .pure fun _ found => spells_member (fun _ _ => rfl) found
  | returnVoid => exact .pure fun _ _ _ => rfl

end ResourceClasses.ClassFile.Insn
