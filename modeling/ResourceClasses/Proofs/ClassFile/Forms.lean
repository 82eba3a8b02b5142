import ResourceClasses.Proofs.ClassFile.Code
import ResourceClasses.Proofs.Outcome

/-!
Forms of instructions: an opcode fixes what stands behind it, how many bytes that is, and which
instructions it can be read as. So a body is a list of spelled instructions that fill it.

Main statements:
* `Insn.decode_cons`: an instruction is read by the form of its opcode.
* `Code.instructions_eq_ok_iff`: a body is read as the instructions that are spelled in it.
-/

set_option autoImplicit false

namespace ResourceClasses.ClassFile

/-- The kinds of instructions on a local slot. -/
inductive SlotKind
  | aload
  | iload
  | istore
  deriving DecidableEq, Repr

def SlotKind.insn : SlotKind → UInt16 → Insn
  | aload => .aload
  | iload => .iload
  | istore => .istore

/-- The kinds of instructions on a member. -/
inductive MemberKind
  | getStatic
  | putStatic
  | invokeStatic
  | invokeSpecial
  deriving DecidableEq, Repr

def MemberKind.insn : MemberKind → MemberRef → Insn
  | getStatic => .getStatic
  | putStatic => .putStatic
  | invokeStatic => .invokeStatic
  | invokeSpecial => .invokeSpecial

/-- What stands behind an opcode: nothing, because it names the whole instruction; an int or the
index of one, in one byte or in two; a local slot; the index of a member; the type of an array; or
another opcode with a slot of two bytes. -/
inductive Form
  | whole (insn : Insn)
  | byteInt
  | wordInt
  | byteConstant
  | wordConstant
  | slot (kind : SlotKind)
  | member (kind : MemberKind)
  | array
  | wide
  deriving DecidableEq, Repr

namespace Form

/-- The bytes of an instruction of the form, with its opcode. -/
def size : Form → Nat
  | whole _ => 1
  | byteInt | byteConstant | slot _ | array => 2
  | wordInt | wordConstant | member _ => 3
  | wide => 4

/-- The instruction of an opcode of the form, from the bytes behind the opcode, and its size. -/
def read (pool : ConstantPool) (offset : Nat) (opcode : UInt8) (operands : List UInt8) :
    Form → Except FormatError (Insn × Nat)
  | whole insn => .ok (insn, 1)
  | byteInt => do .ok (.pushInt (Insn.signedByte (← Insn.byteAt (offset + 1) operands)), 2)
  | wordInt => do .ok (.pushInt (Insn.signedWord (← Insn.wordAt (offset + 1) operands)), 3)
  | byteConstant => do
    let index ← Insn.byteAt (offset + 1) operands
    .ok (.pushInt (← pool.integerAt index.toUInt16), 2)
  | wordConstant => do
    let index ← Insn.wordAt (offset + 1) operands
    .ok (.pushInt (← pool.integerAt index), 3)
  | slot kind => do .ok (kind.insn (← Insn.byteAt (offset + 1) operands).toUInt16, 2)
  | member kind => do
    let index ← Insn.wordAt (offset + 1) operands
    .ok (kind.insn (← pool.memberAt index), 3)
  | array => do
    let elementType ← Insn.byteAt (offset + 1) operands
    if elementType.toNat = 10 then .ok (.newIntArray, 2)
    else .error (.unsupportedOpcode opcode offset)
  | wide => do
    let widened ← Insn.byteAt (offset + 1) operands
    let place ← Insn.wordAt (offset + 2) operands.tail
    if widened.toNat = 0x15 then .ok (.iload place, 4)
    else if widened.toNat = 0x19 then .ok (.aload place, 4)
    else if widened.toNat = 0x36 then .ok (.istore place, 4)
    else .error (.unsupportedOpcode widened offset)

/-- Whether an instruction can be read from bytes of the form. -/
def Makes (insn : Insn) : Form → Prop
  | whole only => insn = only
  | byteInt | wordInt | byteConstant | wordConstant => ∃ value, insn = .pushInt value
  | slot kind => ∃ place, insn = kind.insn place
  | member kind => ∃ ref, insn = kind.insn ref
  | array => insn = .newIntArray
  | wide => ∃ (kind : SlotKind) (place : UInt16), insn = kind.insn place

end Form

/-- The form of an opcode that can be read. -/
def form? (opcode : UInt8) : Option Form :=
  let op := opcode.toNat
  if 0x02 ≤ op ∧ op ≤ 0x08 then some (.whole (.pushInt (Int32.ofInt ((op : Int) - 3))))
  else if op = 0x10 then some .byteInt
  else if op = 0x11 then some .wordInt
  else if op = 0x12 then some .byteConstant
  else if op = 0x13 then some .wordConstant
  else if op = 0x15 then some (.slot .iload)
  else if op = 0x19 then some (.slot .aload)
  else if op = 0x36 then some (.slot .istore)
  else if 0x1a ≤ op ∧ op ≤ 0x1d then some (.whole (.iload (UInt16.ofNat (op - 0x1a))))
  else if 0x2a ≤ op ∧ op ≤ 0x2d then some (.whole (.aload (UInt16.ofNat (op - 0x2a))))
  else if 0x3b ≤ op ∧ op ≤ 0x3e then some (.whole (.istore (UInt16.ofNat (op - 0x3b))))
  else if op = 0x4f then some (.whole .iastore)
  else if op = 0x59 then some (.whole .dup)
  else if op = 0x60 then some (.whole .iadd)
  else if op = 0xb1 then some (.whole .returnVoid)
  else if op = 0xb2 then some (.member .getStatic)
  else if op = 0xb3 then some (.member .putStatic)
  else if op = 0xb7 then some (.member .invokeSpecial)
  else if op = 0xb8 then some (.member .invokeStatic)
  else if op = 0xbc then some .array
  else if op = 0xc4 then some .wide
  else none

/-- What an instruction of the given opcode takes in a body. -/
def opcodeSize (opcode : UInt8) : Nat :=
  match form? opcode with
  | some form => form.size
  | none => 0

namespace Insn

section

variable {pool : ConstantPool} {offset : Nat}

/-- What is read for an opcode whose form may be known. -/
def decodeForm (pool : ConstantPool) (offset : Nat) (opcode : UInt8) (operands : List UInt8) :
    Option Form → Except FormatError (Insn × Nat)
  | some form => form.read pool offset opcode operands
  | none => .error (.unsupportedOpcode opcode offset)

private theorem ite_decodeForm {opcode : UInt8} {operands : List UInt8} {condition : Prop}
    [Decidable condition] {form other : Option Form}
    {first second : Except FormatError (Insn × Nat)}
    (yes : first = decodeForm pool offset opcode operands form)
    (no : second = decodeForm pool offset opcode operands other) :
    (if condition then first else second) =
      decodeForm pool offset opcode operands (if condition then form else other) := by
  split
  · exact yes
  · exact no

/-- An instruction is read by the form of its opcode. -/
theorem decode_cons (opcode : UInt8) (operands : List UInt8) :
    decode pool offset (opcode :: operands) =
      decodeForm pool offset opcode operands (form? opcode) := by
  unfold form?
  change (if _ then _ else _ : Except FormatError (Insn × Nat)) = _
  iterate 21 refine ite_decodeForm rfl ?_
  rfl

private theorem exists_of_byteAt {code : List UInt8} {byte : UInt8}
    (found : byteAt offset code = .ok byte) : ∃ rest, code = byte :: rest := by
  cases code with
  | nil => contradiction
  | cons first rest =>
    cases found
    exact ⟨rest, rfl⟩

private theorem exists_of_wordAt {code : List UInt8} {word : UInt16}
    (found : wordAt offset code = .ok word) :
    ∃ high low rest, code = high :: low :: rest ∧
      word = UInt16.ofNat (256 * high.toNat + low.toNat) := by
  match code with
  | [] | [_] => contradiction
  | high :: low :: rest =>
    cases found
    exact ⟨high, low, rest, rfl, rfl⟩

/-- What is read by a form is made by it, from as many bytes as it takes, whatever follows them and
wherever they stand. -/
private theorem exists_of_read {form : Form} {opcode : UInt8} {operands : List UInt8} {insn : Insn}
    {size : Nat} (read : form.read pool offset opcode operands = .ok (insn, size)) :
    form.Makes insn ∧ size = form.size ∧ ∃ front rest, operands = front ++ rest ∧
      form.size = front.length + 1 ∧
        ∀ place later, form.read pool place opcode (front ++ later) = .ok (insn, form.size) := by
  cases form with
  | whole only =>
    cases read
    exact ⟨rfl, rfl, [], operands, rfl, rfl, fun _ _ => rfl⟩
  | byteInt =>
    obtain ⟨byte, found, same⟩ := bind_eq_ok_iff.mp read
    obtain ⟨rest, rfl⟩ := exists_of_byteAt found
    cases same
    exact ⟨⟨_, rfl⟩, rfl, [byte], rest, rfl, rfl, fun _ _ => rfl⟩
  | wordInt =>
    obtain ⟨word, found, same⟩ := bind_eq_ok_iff.mp read
    obtain ⟨high, low, rest, rfl, rfl⟩ := exists_of_wordAt found
    cases same
    exact ⟨⟨_, rfl⟩, rfl, [high, low], rest, rfl, rfl, fun _ _ => rfl⟩
  | byteConstant =>
    obtain ⟨index, found, known⟩ := bind_eq_ok_iff.mp read
    obtain ⟨rest, rfl⟩ := exists_of_byteAt found
    obtain ⟨value, _, same⟩ := bind_eq_ok_iff.mp known
    cases same
    exact ⟨⟨value, rfl⟩, rfl, [index], rest, rfl, rfl, fun _ _ => read⟩
  | wordConstant =>
    obtain ⟨index, found, known⟩ := bind_eq_ok_iff.mp read
    obtain ⟨high, low, rest, rfl, rfl⟩ := exists_of_wordAt found
    obtain ⟨value, _, same⟩ := bind_eq_ok_iff.mp known
    cases same
    exact ⟨⟨value, rfl⟩, rfl, [high, low], rest, rfl, rfl, fun _ _ => read⟩
  | slot kind =>
    obtain ⟨place, found, same⟩ := bind_eq_ok_iff.mp read
    obtain ⟨rest, rfl⟩ := exists_of_byteAt found
    cases same
    exact ⟨⟨_, rfl⟩, rfl, [place], rest, rfl, rfl, fun _ _ => rfl⟩
  | member kind =>
    obtain ⟨index, found, known⟩ := bind_eq_ok_iff.mp read
    obtain ⟨high, low, rest, rfl, rfl⟩ := exists_of_wordAt found
    obtain ⟨ref, _, same⟩ := bind_eq_ok_iff.mp known
    cases same
    exact ⟨⟨ref, rfl⟩, rfl, [high, low], rest, rfl, rfl, fun _ _ => read⟩
  | array =>
    obtain ⟨elementType, found, same⟩ := bind_eq_ok_iff.mp read
    obtain ⟨rest, rfl⟩ := exists_of_byteAt found
    split at same
    · rename_i int
      cases same
      exact ⟨rfl, rfl, [elementType], rest, rfl, rfl, fun _ _ => if_pos int⟩
    · contradiction
  | wide =>
    obtain ⟨widened, first, known⟩ := bind_eq_ok_iff.mp read
    obtain ⟨behind, rfl⟩ := exists_of_byteAt first
    obtain ⟨place, found, same⟩ := bind_eq_ok_iff.mp known
    obtain ⟨high, low, rest, rfl, rfl⟩ := exists_of_wordAt found
    split at same
    · rename_i iload
      cases same
      exact ⟨⟨.iload, _, rfl⟩, rfl, [widened, high, low], rest, rfl, rfl, fun _ _ => if_pos iload⟩
    · rename_i not_iload
      split at same
      · rename_i aload
        cases same
        exact ⟨⟨.aload, _, rfl⟩, rfl, [widened, high, low], rest, rfl, rfl,
          fun _ _ => (if_neg not_iload).trans (if_pos aload)⟩
      · rename_i not_aload
        split at same
        · rename_i istore
          cases same
          exact ⟨⟨.istore, _, rfl⟩, rfl, [widened, high, low], rest, rfl, rfl,
            fun _ _ => (if_neg not_iload).trans ((if_neg not_aload).trans (if_pos istore))⟩
        · contradiction

theorem decode_of_form {opcode : UInt8} {form : Form} (known : form? opcode = some form)
    (operands : List UInt8) :
    decode pool offset (opcode :: operands) = form.read pool offset opcode operands := by
  rw [decode_cons, known]
  rfl

end

end Insn

namespace Code

/-- Whether an instruction is one that its opcode can stand for. -/
def Located.Formed (located : Located) : Prop :=
  ∃ form, form? located.opcode = some form ∧ form.Makes located.insn

/-- The instructions in some bytes that start at an offset, which the last of them fills. -/
inductive Listed (pool : ConstantPool) : Nat → List UInt8 → List Located → Prop
  | nil {offset : Nat} : Listed pool offset [] []
  | cons {offset : Nat} {opcode : UInt8} {operands rest : List UInt8} {insn : Insn}
      {later : List Located} (spelled : insn.Spells pool (opcode :: operands))
      (listed : Listed pool (offset + (operands.length + 1)) rest later) :
      Listed pool offset (opcode :: (operands ++ rest)) (⟨offset, opcode, insn⟩ :: later)

section

variable {pool : ConstantPool} {offset : Nat}

/-- An instruction that is read from some bytes is spelled by the first of them. -/
theorem spelled_of_decode {opcode : UInt8} {code : List UInt8} {insn : Insn} {size : Nat}
    (decoded : Insn.decode pool offset (opcode :: code) = .ok (insn, size)) :
    ∃ operands rest, code = operands ++ rest ∧ size = operands.length + 1 ∧
      insn.Spells pool (opcode :: operands) := by
  cases known : form? opcode with
  | none =>
    rw [Insn.decode_cons, known] at decoded
    contradiction
  | some form =>
    rw [Insn.decode_of_form known] at decoded
    obtain ⟨-, sized, operands, rest, split, length, read⟩ := Insn.exists_of_read decoded
    refine ⟨operands, rest, split, sized.trans length, fun place later => ?_⟩
    rw [List.cons_append, Insn.decode_of_form known, read, length]
    rfl

/-- A spelled instruction has the form of its opcode. -/
theorem formed_of_spelled {opcode : UInt8} {operands : List UInt8} {insn : Insn}
    (spelled : insn.Spells pool (opcode :: operands)) :
    ∃ form, form? opcode = some form ∧ form.Makes insn ∧ form.size = operands.length + 1 := by
  have decoded := spelled 0 []
  rw [List.append_nil] at decoded
  cases known : form? opcode with
  | none =>
    rw [Insn.decode_cons, known] at decoded
    contradiction
  | some form =>
    rw [Insn.decode_of_form known] at decoded
    obtain ⟨made, sized, -⟩ := Insn.exists_of_read decoded
    exact ⟨form, rfl, made, sized.symm⟩

theorem instructionsFrom_of_listed {bytes : List UInt8} {located : List Located}
    (listed : Listed pool offset bytes located) (found : List Located) :
    instructionsFrom pool found 0 offset bytes = .ok (found.reverse ++ located) := by
  induction listed generalizing found with
  | nil => rw [instructionsFrom, List.append_nil]
  | @cons offset opcode operands rest insn later spelled _ ih =>
    have decoded := spelled offset rest
    rw [List.cons_append] at decoded
    rw [instructionsFrom, decoded]
    simp only [List.length_cons, Nat.add_sub_cancel]
    rw [instructionsFrom_skip, Nat.add_assoc, Nat.add_comm 1, ih, List.reverse_cons,
      List.append_assoc, List.singleton_append]

/-- The bytes of the last found instruction are passed over. -/
private theorem listed_of_instructionsFrom {bytes : List UInt8} {found located : List Located}
    {skip : Nat} (enough : skip ≤ bytes.length)
    (read : instructionsFrom pool found skip offset bytes = .ok located) :
    ∃ later, located = found.reverse ++ later ∧
      Listed pool (offset + skip) (bytes.drop skip) later := by
  induction bytes generalizing found skip offset with
  | nil =>
    cases read
    rw [List.drop_nil]
    exact ⟨[], (List.append_nil _).symm, .nil⟩
  | cons opcode code ih =>
    cases skip with
    | succ skip =>
      have later := ih (Nat.le_of_succ_le_succ enough) read
      rwa [Nat.add_assoc, Nat.add_comm 1] at later
    | zero =>
      unfold instructionsFrom at read
      split at read
      · contradiction
      · rename_i insn size decoded
        obtain ⟨operands, rest, rfl, rfl, spelled⟩ := spelled_of_decode decoded
        rw [Nat.add_sub_cancel] at read
        obtain ⟨later, all, listed⟩ := ih (by simp) read
        rw [List.drop_left, Nat.add_assoc, Nat.add_comm 1] at listed
        refine ⟨⟨offset, opcode, insn⟩ :: later, ?_, .cons spelled listed⟩
        rw [all, List.reverse_cons, List.append_assoc, List.singleton_append]

theorem instructions_eq_ok_iff {bytes : List UInt8} {located : List Located} :
    instructions pool bytes = .ok located ↔ Listed pool 0 bytes located := by
  constructor
  · intro read
    obtain ⟨later, rfl, listed⟩ := listed_of_instructionsFrom (Nat.zero_le _) read
    exact listed
  · exact fun listed => instructionsFrom_of_listed listed []

namespace Listed

variable {bytes : List UInt8} {located : List Located}

theorem formed (listed : Listed pool offset bytes located) : ∀ one ∈ located, one.Formed := by
  induction listed with
  | nil => simp
  | cons spelled _ ih =>
    obtain ⟨form, known, made, -⟩ := formed_of_spelled spelled
    exact List.forall_mem_cons.mpr ⟨⟨form, known, made⟩, ih⟩

/-- The opcodes of a body fix its length. -/
theorem length_eq (listed : Listed pool offset bytes located) :
    bytes.length = total (located.map fun one => opcodeSize one.opcode) := by
  induction listed with
  | nil => rfl
  | cons spelled _ ih =>
    obtain ⟨form, known, -, sized⟩ := formed_of_spelled spelled
    rw [List.map_cons, total_cons, ← ih, opcodeSize, known, List.length_cons, List.length_append]
    simp only [sized]
    omega

end Listed

end

end Code

end ResourceClasses.ClassFile
