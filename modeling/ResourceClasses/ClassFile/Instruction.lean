import ResourceClasses.ClassFile.ConstantPool
import ResourceClasses.ClassFile.Descriptor

/-!
Instructions: symbolic forms that name their operands, and the bytes that stand for them.

Writing an instruction adds its operands to the constant pool and takes the shortest form for
locals and ints; reading one resolves its operands and says how many bytes it took.
-/

set_option autoImplicit false

namespace ResourceClasses.ClassFile

/-- An instruction of a method body. -/
inductive Insn
  | aload (slot : UInt16)
  | iload (slot : UInt16)
  | istore (slot : UInt16)
  | pushInt (value : Int32)
  | iadd
  | dup
  | newIntArray
  | iastore
  | getStatic (field : MemberRef)
  | putStatic (field : MemberRef)
  | invokeStatic (method : MemberRef)
  | invokeSpecial (method : MemberRef)
  | returnVoid
  deriving DecidableEq, Repr

namespace Insn

/-- The bytes that an instruction on a local slot takes. -/
def localSize (slot : UInt16) : Nat :=
  if slot.toNat ≤ 3 then 1 else if slot.toNat ≤ 255 then 2 else 4

/-- The most bytes that pushing an int takes. -/
def pushSize (value : Int32) : Nat :=
  let n := value.toInt
  if -1 ≤ n ∧ n ≤ 5 then 1 else if -128 ≤ n ∧ n ≤ 127 then 2 else 3

/-- The most bytes that an instruction takes. -/
def maxSize : Insn → Nat
  | aload slot | iload slot | istore slot => localSize slot
  | pushInt value => pushSize value
  | iadd | dup | iastore | returnVoid => 1
  | newIntArray => 2
  | getStatic _ | putStatic _ | invokeStatic _ | invokeSpecial _ => 3

/-- The stack slots that an instruction takes off, and those that it puts on. -/
def stackEffect : Insn → Except FormatError (Nat × Nat)
  | aload _ | iload _ | pushInt _ => .ok (0, 1)
  | istore _ => .ok (1, 0)
  | iadd => .ok (2, 1)
  | dup => .ok (1, 2)
  | newIntArray => .ok (1, 1)
  | iastore => .ok (3, 0)
  | getStatic field => do .ok (0, ← Descriptor.fieldSlots field.descriptor)
  | putStatic field => do .ok (← Descriptor.fieldSlots field.descriptor, 0)
  | invokeStatic method => Descriptor.methodSlots method.descriptor
  | invokeSpecial method => do
    let (arguments, result) ← Descriptor.methodSlots method.descriptor
    .ok (arguments + 1, result)
  | returnVoid => .ok (0, 0)

def local? : Insn → Option UInt16
  | aload slot | iload slot | istore slot => some slot
  | _ => none

/-- The bytes of an instruction on a local slot, from the opcode of its form for slot zero and the
opcode of its general form. -/
def localBytes (short long : UInt8) (slot : UInt16) : List UInt8 :=
  if slot.toNat ≤ 3 then [UInt8.ofNat (short.toNat + slot.toNat)]
  else if slot.toNat ≤ 255 then [long, slot.toUInt8]
  else 0xc4 :: long :: word16 slot

/-- The bytes of an instruction with an index of two bytes. -/
def indexed (opcode : UInt8) (index : UInt16) : List UInt8 :=
  opcode :: word16 index

/-- The bytes that push an int; an int of more than two bytes becomes a constant. -/
def pushBytes (value : Int32) : Pooled (List UInt8) :=
  let n := value.toInt
  if -1 ≤ n ∧ n ≤ 5 then pure [UInt8.ofNat (n + 3).toNat]
  else if -128 ≤ n ∧ n ≤ 127 then pure [0x10, UInt8.ofNat (n % 256).toNat]
  else if -32768 ≤ n ∧ n ≤ 32767 then pure (0x11 :: bigEndian 2 (n % 65536).toNat)
  else do
    let index ← ConstantPool.integer value
    pure (if index.toNat ≤ 255 then [0x12, index.toUInt8] else indexed 0x13 index)

/-- The bytes of an instruction. -/
def encode : Insn → Pooled (List UInt8)
  | aload slot => pure (localBytes 0x2a 0x19 slot)
  | iload slot => pure (localBytes 0x1a 0x15 slot)
  | istore slot => pure (localBytes 0x3b 0x36 slot)
  | pushInt value => pushBytes value
  | iadd => pure [0x60]
  | dup => pure [0x59]
  | newIntArray => pure [0xbc, 10]
  | iastore => pure [0x4f]
  | getStatic field => do pure (indexed 0xb2 (← ConstantPool.fieldRef field))
  | putStatic field => do pure (indexed 0xb3 (← ConstantPool.fieldRef field))
  | invokeStatic method => do pure (indexed 0xb8 (← ConstantPool.methodRef method))
  | invokeSpecial method => do pure (indexed 0xb7 (← ConstantPool.methodRef method))
  | returnVoid => pure [0xb1]

/-- The first byte of some bytes that start at the given offset of a method body. -/
def byteAt (offset : Nat) : List UInt8 → Except FormatError UInt8
  | byte :: _ => .ok byte
  | [] => .error (.unexpectedEof offset)

/-- The first two bytes of some bytes that start at the given offset, as a number. -/
def wordAt (offset : Nat) : List UInt8 → Except FormatError UInt16
  | high :: low :: _ => .ok (UInt16.ofNat (256 * high.toNat + low.toNat))
  | [_] => .error (.unexpectedEof (offset + 1))
  | [] => .error (.unexpectedEof offset)

def signedByte (byte : UInt8) : Int32 :=
  Int32.ofInt ((byte.toNat : Int).bmod 256)

def signedWord (word : UInt16) : Int32 :=
  Int32.ofInt ((word.toNat : Int).bmod 65536)

/-- The instruction at the front of the bytes that start at the given offset of a method body, and
the number of bytes that it takes. -/
def decode (pool : ConstantPool) (offset : Nat) (code : List UInt8) :
    Except FormatError (Insn × Nat) := do
  let opcode ← byteAt offset code
  let operands := code.tail
  let op := opcode.toNat
  if 0x02 ≤ op ∧ op ≤ 0x08 then .ok (pushInt (Int32.ofInt ((op : Int) - 3)), 1)
  else if op = 0x10 then do .ok (pushInt (signedByte (← byteAt (offset + 1) operands)), 2)
  else if op = 0x11 then do .ok (pushInt (signedWord (← wordAt (offset + 1) operands)), 3)
  else if op = 0x12 then do
    let index ← byteAt (offset + 1) operands
    .ok (pushInt (← pool.integerAt index.toUInt16), 2)
  else if op = 0x13 then do
    let index ← wordAt (offset + 1) operands
    .ok (pushInt (← pool.integerAt index), 3)
  else if op = 0x15 then do .ok (iload (← byteAt (offset + 1) operands).toUInt16, 2)
  else if op = 0x19 then do .ok (aload (← byteAt (offset + 1) operands).toUInt16, 2)
  else if op = 0x36 then do .ok (istore (← byteAt (offset + 1) operands).toUInt16, 2)
  else if 0x1a ≤ op ∧ op ≤ 0x1d then .ok (iload (UInt16.ofNat (op - 0x1a)), 1)
  else if 0x2a ≤ op ∧ op ≤ 0x2d then .ok (aload (UInt16.ofNat (op - 0x2a)), 1)
  else if 0x3b ≤ op ∧ op ≤ 0x3e then .ok (istore (UInt16.ofNat (op - 0x3b)), 1)
  else if op = 0x4f then .ok (iastore, 1)
  else if op = 0x59 then .ok (dup, 1)
  else if op = 0x60 then .ok (iadd, 1)
  else if op = 0xb1 then .ok (returnVoid, 1)
  else if op = 0xb2 then do
    let index ← wordAt (offset + 1) operands
    .ok (getStatic (← pool.memberAt index), 3)
  else if op = 0xb3 then do
    let index ← wordAt (offset + 1) operands
    .ok (putStatic (← pool.memberAt index), 3)
  else if op = 0xb7 then do
    let index ← wordAt (offset + 1) operands
    .ok (invokeSpecial (← pool.memberAt index), 3)
  else if op = 0xb8 then do
    let index ← wordAt (offset + 1) operands
    .ok (invokeStatic (← pool.memberAt index), 3)
  else if op = 0xbc then do
    let elementType ← byteAt (offset + 1) operands
    if elementType.toNat = 10 then .ok (newIntArray, 2)
    else .error (.unsupportedOpcode opcode offset)
  else if op = 0xc4 then do
    let widened ← byteAt (offset + 1) operands
    let slot ← wordAt (offset + 2) operands.tail
    if widened.toNat = 0x15 then .ok (iload slot, 4)
    else if widened.toNat = 0x19 then .ok (aload slot, 4)
    else if widened.toNat = 0x36 then .ok (istore slot, 4)
    else .error (.unsupportedOpcode widened offset)
  else .error (.unsupportedOpcode opcode offset)

end Insn

/-- The mnemonic of an opcode. -/
def mnemonic (opcode : UInt8) : String :=
  match opcode.toNat with
  | 0x02 => "iconst_m1"
  | 0x03 => "iconst_0"
  | 0x04 => "iconst_1"
  | 0x05 => "iconst_2"
  | 0x06 => "iconst_3"
  | 0x07 => "iconst_4"
  | 0x08 => "iconst_5"
  | 0x10 => "bipush"
  | 0x11 => "sipush"
  | 0x12 => "ldc"
  | 0x13 => "ldc_w"
  | 0x15 => "iload"
  | 0x19 => "aload"
  | 0x1a => "iload_0"
  | 0x1b => "iload_1"
  | 0x1c => "iload_2"
  | 0x1d => "iload_3"
  | 0x2a => "aload_0"
  | 0x2b => "aload_1"
  | 0x2c => "aload_2"
  | 0x2d => "aload_3"
  | 0x36 => "istore"
  | 0x3b => "istore_0"
  | 0x3c => "istore_1"
  | 0x3d => "istore_2"
  | 0x3e => "istore_3"
  | 0x4f => "iastore"
  | 0x59 => "dup"
  | 0x60 => "iadd"
  | 0xb1 => "return"
  | 0xb2 => "getstatic"
  | 0xb3 => "putstatic"
  | 0xb7 => "invokespecial"
  | 0xb8 => "invokestatic"
  | 0xbc => "newarray"
  | 0xc4 => "wide"
  | _ => "???"

end ResourceClasses.ClassFile
