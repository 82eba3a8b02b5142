import ResourceClasses.ClassFile.Instruction
import ResourceClasses.Total

/-!
Method bodies: the bytes of a list of instructions with the stack and locals that they need, and
the instructions in the bytes of a body.
-/

set_option autoImplicit false

namespace ResourceClasses.ClassFile

namespace Code

/-- The most bytes that a list of instructions takes. -/
def maxSize (insns : List Insn) : Nat :=
  total (insns.map Insn.maxSize)

/-- The bytes of a method body, and the stack and locals that running it takes. -/
structure Encoded where
  bytes : List UInt8
  maxStack : Nat
  maxLocals : Nat
  deriving DecidableEq, Repr

/-- What is known of a body while its instructions are written one by one. -/
structure Progress where
  index : Nat
  depth : Nat
  maxStack : Nat
  maxLocals : Nat
  /-- The bytes of the instructions written so far, the last one first. -/
  written : List (List UInt8)

/-- Nothing is written, and the arguments take their local slots. -/
def Progress.start (argumentSlots : Nat) : Progress :=
  ⟨0, 0, 0, argumentSlots, []⟩

/-- Accounts for an instruction that takes slots off the stack and puts slots on it. -/
def Progress.add (progress : Progress) (insn : Insn) (pops pushes : Nat) (bytes : List UInt8) :
    Progress :=
  let depth := progress.depth - pops + pushes
  { index := progress.index + 1
    depth
    maxStack := max progress.maxStack depth
    maxLocals :=
      match insn.local? with
      | some slot => max progress.maxLocals (slot.toNat + 1)
      | none => progress.maxLocals
    written := bytes :: progress.written }

def encodeFrom (method : String) : Progress → List Insn → Pooled Progress
  | progress, [] => pure progress
  | progress, insn :: rest => do
    let (pops, pushes) ← Pooled.ofExcept insn.stackEffect
    if progress.depth < pops then
      throw (.stackUnderflow method progress.index)
    let bytes ← insn.encode
    encodeFrom method (progress.add insn pops pushes bytes) rest

/-- The body of a method of the given name whose arguments take the given local slots. -/
def encode (method : String) (argumentSlots : Nat) (insns : List Insn) : Pooled Encoded := do
  let progress ← encodeFrom method (.start argumentSlots) insns
  let bytes := progress.written.reverse.flatten
  if bytes.length > maxCodeSize then
    throw (.codeTooLarge method bytes.length)
  pure ⟨bytes, progress.maxStack, progress.maxLocals⟩

/-- An instruction with its opcode and the offset where it starts. -/
structure Located where
  offset : Nat
  opcode : UInt8
  insn : Insn
  deriving DecidableEq, Repr

/-- Reads the instructions in some bytes that start at the given offset, the given number of which
belong to the instruction before; those found already are given with the last one first. -/
def instructionsFrom (pool : ConstantPool) :
    List Located → Nat → Nat → List UInt8 → Except FormatError (List Located)
  | found, _, _, [] => .ok found.reverse
  | found, skip + 1, offset, _ :: rest => instructionsFrom pool found skip (offset + 1) rest
  | found, 0, offset, opcode :: rest =>
    match Insn.decode pool offset (opcode :: rest) with
    | .error e => .error e
    | .ok (insn, size) =>
      instructionsFrom pool (⟨offset, opcode, insn⟩ :: found) (size - 1) (offset + 1) rest

def instructions (pool : ConstantPool) (bytes : List UInt8) : Except FormatError (List Located) :=
  instructionsFrom pool [] 0 0 bytes

end Code

end ResourceClasses.ClassFile
