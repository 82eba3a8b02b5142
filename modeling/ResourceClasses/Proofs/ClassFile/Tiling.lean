import ResourceClasses.Proofs.ClassFile.Forms
import ResourceClasses.Proofs.ClassFile.Parts

/-!
Tiled method bodies: each instruction that is read takes from one to four bytes that are there, so
the loop over the bytes of a body ends, and the instructions that it finds lie side by side.

Main statements:
* `Code.loopEnds_iff`: the loop over the bytes of a body ends on all of them, with what is read.
* `decoding_tiles`: the instructions of each body of a class file that is read tile its bytes.
-/

set_option autoImplicit false

namespace ResourceClasses.ClassFile

theorem Form.size_le (form : Form) : form.size ≤ 4 := by
  cases form <;> simp [size]

/-- An instruction takes the byte of its opcode and at most three more, and all of them are there. -/
theorem Insn.size_of_decode {pool : ConstantPool} {offset size : Nat} {code : List UInt8}
    {insn : Insn} (decoded : decode pool offset (code.drop offset) = .ok (insn, size)) :
    1 ≤ size ∧ size ≤ 4 ∧ offset + size ≤ code.length := by
  have left : (code.drop offset).length = code.length - offset := List.length_drop
  cases behind : code.drop offset with
  | nil =>
    rw [behind] at decoded
    contradiction
  | cons opcode operands =>
    rw [behind] at decoded left
    obtain ⟨front, rest, rfl, rfl, spelled⟩ := Code.spelled_of_decode decoded
    obtain ⟨form, -, -, sized⟩ := Code.formed_of_spelled spelled
    have small := form.size_le
    rw [List.length_cons, List.length_append] at left
    omega

namespace Code

variable {pool : ConstantPool} {bytes : List UInt8} {offset : Nat}

/-- How a loop over the bytes of a body ends from an offset on: it stops when the offset is not
inside the bytes, fails where no instruction is read, and otherwise notes the instruction that is
read and goes on behind the bytes that it takes. -/
inductive LoopEnds (pool : ConstantPool) (bytes : List UInt8) :
    Nat → Except FormatError (List Located) → Prop
  | stops {offset : Nat} (outside : bytes.length ≤ offset) : LoopEnds pool bytes offset (.ok [])
  | fails {offset : Nat} {e : FormatError} (inside : offset < bytes.length)
      (refused : Insn.decode pool offset (bytes.drop offset) = .error e) :
      LoopEnds pool bytes offset (.error e)
  | goesOn {offset size : Nat} {insn : Insn} {outcome : Except FormatError (List Located)}
      (inside : offset < bytes.length)
      (decoded : Insn.decode pool offset (bytes.drop offset) = .ok (insn, size))
      (later : LoopEnds pool bytes (offset + size) outcome) :
      LoopEnds pool bytes offset (outcome.map (⟨offset, bytes[offset], insn⟩ :: ·))

/-- Each round gets nearer to the end of the bytes. -/
private theorem exists_loopEnds (pool : ConstantPool) (bytes : List UInt8) (offset : Nat) :
    ∃ outcome, LoopEnds pool bytes offset outcome := by
  induction left : bytes.length - offset using Nat.strongRecOn generalizing offset with
  | ind distance ih =>
    by_cases inside : offset < bytes.length
    · cases read : Insn.decode pool offset (bytes.drop offset) with
      | error e => exact ⟨_, .fails inside read⟩
      | ok found =>
        obtain ⟨insn, size⟩ := found
        have some_byte : 1 ≤ size := (Insn.size_of_decode read).1
        have nearer : bytes.length - (offset + size) < distance := by omega
        obtain ⟨outcome, later⟩ := ih _ nearer (offset + size) rfl
        exact ⟨_, .goesOn inside read later⟩
    · exact ⟨_, .stops (Nat.le_of_not_lt inside)⟩

/-- Instructions that were found before stand in front of those that follow. -/
private theorem instructionsFrom_append (found : List Located) (skip offset : Nat)
    (bytes : List UInt8) :
    instructionsFrom pool found skip offset bytes =
      (instructionsFrom pool [] skip offset bytes).map (found.reverse ++ ·) := by
  induction bytes generalizing found skip offset with
  | nil => simp [instructionsFrom, Except.map]
  | cons opcode rest ih =>
    cases skip with
    | succ skip => exact ih found skip (offset + 1)
    | zero =>
      unfold instructionsFrom
      split
      · rfl
      · rename_i insn size _
        rw [ih (⟨offset, opcode, insn⟩ :: found), ih [⟨offset, opcode, insn⟩]]
        cases instructionsFrom pool [] (size - 1) (offset + 1) rest <;> simp [Except.map]

/-- Reading takes the instruction at an offset and goes on behind it. -/
private theorem instructionsFrom_drop {size : Nat} {insn : Insn} (inside : offset < bytes.length)
    (decoded : Insn.decode pool offset (bytes.drop offset) = .ok (insn, size)) :
    instructionsFrom pool [] 0 offset (bytes.drop offset) =
      (instructionsFrom pool [] 0 (offset + size) (bytes.drop (offset + size))).map
        (⟨offset, bytes[offset], insn⟩ :: ·) := by
  have front := List.drop_eq_getElem_cons inside
  rw [front] at decoded
  obtain ⟨operands, rest, split, rfl, -⟩ := spelled_of_decode decoded
  have behind : bytes.drop (offset + (operands.length + 1)) = rest := by
    rw [Nat.add_comm operands.length, ← Nat.add_assoc, ← List.drop_drop, split, List.drop_left]
  rw [front, instructionsFrom, decoded, behind]
  dsimp only
  rw [Nat.add_sub_cancel, split, instructionsFrom_skip, instructionsFrom_append, Nat.add_assoc,
    Nat.add_comm 1]
  rfl

private theorem eq_of_loopEnds {outcome : Except FormatError (List Located)}
    (ends : LoopEnds pool bytes offset outcome) :
    outcome = instructionsFrom pool [] 0 offset (bytes.drop offset) := by
  induction ends with
  | stops outside =>
    rw [List.drop_eq_nil_of_le outside]
    rfl
  | fails inside refused =>
    rw [List.drop_eq_getElem_cons inside] at refused ⊢
    rw [instructionsFrom, refused]
  | goesOn inside decoded _ ih => rw [instructionsFrom_drop inside decoded, ih]

/-- The loop over the bytes of a body ends on all of them, in one way: with what is read. -/
theorem loopEnds_iff {outcome : Except FormatError (List Located)} :
    LoopEnds pool bytes 0 outcome ↔ outcome = instructions pool bytes := by
  constructor
  · exact eq_of_loopEnds
  · rintro rfl
    obtain ⟨outcome, ends⟩ := exists_loopEnds pool bytes 0
    have same : outcome = instructions pool bytes := eq_of_loopEnds ends
    rwa [same] at ends

/-- Whether instructions tile some bytes from an offset on: each of them is read at its offset, with
the opcode that stands there, the next one starts as many bytes later as it takes, and the last one
ends where the bytes end. -/
inductive Tiles (pool : ConstantPool) (bytes : List UInt8) : Nat → List Located → Prop
  | done : Tiles pool bytes bytes.length []
  | next {offset size : Nat} {opcode : UInt8} {insn : Insn} {later : List Located}
      (there : bytes[offset]? = some opcode)
      (decoded : Insn.decode pool offset (bytes.drop offset) = .ok (insn, size))
      (tiled : Tiles pool bytes (offset + size) later) :
      Tiles pool bytes offset (⟨offset, opcode, insn⟩ :: later)

/-- A loop that does not fail tiles the bytes, because no instruction goes past their end. -/
private theorem tiles_of_loopEnds {outcome : Except FormatError (List Located)}
    (ends : LoopEnds pool bytes offset outcome) (within : offset ≤ bytes.length)
    {located : List Located} (read : outcome = .ok located) : Tiles pool bytes offset located := by
  induction ends generalizing located with
  | stops outside =>
    have last := Nat.le_antisymm within outside
    cases read
    rw [last]
    exact .done
  | fails => contradiction
  | @goesOn offset size insn outcome inside decoded _ ih =>
    have end_within := (Insn.size_of_decode decoded).2.2
    cases outcome with
    | error => contradiction
    | ok later =>
      cases read
      exact .next (List.getElem?_eq_getElem inside) decoded (ih end_within rfl)

theorem tiles_of_instructions {located : List Located}
    (read : instructions pool bytes = .ok located) : Tiles pool bytes 0 located :=
  tiles_of_loopEnds (loopEnds_iff.mpr rfl) (Nat.zero_le _) read

end Code

/-- An instruction that is read takes from one to four bytes, which are there; so the loop over the
bytes of a body ends whatever they are, and in a class file that is read the instructions of each
body tile its bytes. -/
theorem decoding_tiles :
    (∀ (pool : ConstantPool) (code : List UInt8) (offset size : Nat) (insn : Insn),
      Insn.decode pool offset (code.drop offset) = .ok (insn, size) →
        1 ≤ size ∧ size ≤ 4 ∧ offset + size ≤ code.length) ∧
    (∀ (pool : ConstantPool) (code : List UInt8) (outcome : Except FormatError (List Code.Located)),
      Code.LoopEnds pool code 0 outcome ↔ outcome = Code.instructions pool code) ∧
    (∀ (bytes : List UInt8) (file : ClassFile) (body : CodeAttribute), parse bytes = .ok file →
      .code body ∈ file.allAttributes → Code.Tiles file.pool body.bytes 0 body.instructions) := by
  refine ⟨?_, ?_, ?_⟩
  · intro pool code offset size insn decoded
    exact Insn.size_of_decode decoded
  · intro pool code outcome
    exact Code.loopEnds_iff
  · intro bytes file body parsed member
    obtain ⟨name, content, read⟩ := (parts_of_parse parsed).attributes _ member
    exact Code.tiles_of_instructions (code_of_attributeOf read).2

/-- The file of a class `K` with a method that loads slot 300 and returns. -/
def loadsWide : List UInt8 :=
  [0xca, 0xfe, 0xba, 0xbe, 0, 0, 0, 51, 0, 6, 1, 0, 1, 75, 7, 0, 1, 1, 0, 4, 67, 111, 100, 101, 1, 0,
    1, 109, 1, 0, 3, 40, 41, 86, 0, 33, 0, 2, 0, 0, 0, 0, 0, 0, 0, 1, 0, 8, 0, 4, 0, 5, 0, 1, 0, 3,
    0, 0, 0, 17, 0, 1, 1, 45, 0, 0, 0, 5, 0xc4, 0x15, 1, 44, 0xb1, 0, 0, 0, 0, 0, 0]

/-- The code of the method of `loadsWide`. -/
def wideLoad : CodeAttribute where
  maxStack := 1
  maxLocals := 301
  bytes := [0xc4, 0x15, 1, 44, 0xb1]
  instructions := [⟨0, 0xc4, .iload 300⟩, ⟨4, 0xb1, .returnVoid⟩]

theorem decoding_tiles_loadsWide :
    ∃ file, parse loadsWide = .ok file ∧ .code wideLoad ∈ file.allAttributes ∧
      Code.Tiles file.pool wideLoad.bytes 0 wideLoad.instructions := by
  have parsed : ∃ file, parse loadsWide = .ok file ∧
      file.allAttributes = [.code wideLoad] := ⟨_, rfl, rfl⟩
  obtain ⟨file, read, only⟩ := parsed
  have member : .code wideLoad ∈ file.allAttributes := by
    rw [only]
    exact List.mem_singleton_self _
  exact ⟨file, read, member, decoding_tiles.2.2 loadsWide file wideLoad read member⟩

end ResourceClasses.ClassFile
