import Mathlib.Data.List.Forall2
import ResourceClasses.ClassFile.Code
import ResourceClasses.Proofs.ClassFile.Instruction

/-!
Method bodies and their bytes: the instructions of a body are read back in order, and the stack and
the locals that are written for it are the most that it uses.
-/

set_option autoImplicit false

namespace ResourceClasses.ClassFile.Code

open Pooled

/-- The operand depths after each of the instructions, from a given depth before them. -/
def depths : Nat → List Insn → List Nat
  | _, [] => []
  | depth, insn :: rest =>
    match insn.stackEffect with
    | .ok (pops, pushes) => (depth - pops + pushes) :: depths (depth - pops + pushes) rest
    | .error _ => []

/-- The largest operand depth that some instructions get to. -/
def largestDepth (insns : List Insn) : Nat :=
  (depths 0 insns).foldl max 0

/-- The local slots that the arguments and the instructions of a body need. -/
def localSlots (argumentSlots : Nat) (insns : List Insn) : Nat :=
  ((insns.filterMap Insn.local?).map fun slot => slot.toNat + 1).foldl max argumentSlots

section

variable {pool : ConstantPool}

/-- The bytes of an instruction after its opcode are passed over. -/
theorem instructionsFrom_skip (operands rest : List UInt8) (found : List Located)
    (offset : Nat) :
    instructionsFrom pool found operands.length offset (operands ++ rest) =
      instructionsFrom pool found 0 (offset + operands.length) rest := by
  induction operands generalizing offset with
  | nil => rfl
  | cons byte later ih =>
    rw [List.length_cons, List.cons_append, instructionsFrom, ih (offset + 1), Nat.add_right_comm]
    rfl

private theorem instructionsFrom_spelled {insn : Insn} {bytes : List UInt8}
    (spelled : insn.Spells pool bytes) (found : List Located) (offset : Nat) (rest : List UInt8) :
    ∃ located : Located, located.insn = insn ∧ located.offset = offset ∧
      instructionsFrom pool found 0 offset (bytes ++ rest) =
        instructionsFrom pool (located :: found) 0 (offset + bytes.length) rest := by
  cases bytes with
  | nil =>
    have nothing := spelled offset []
    contradiction
  | cons opcode operands =>
    refine ⟨⟨offset, opcode, insn⟩, rfl, rfl, ?_⟩
    have decoded := spelled offset rest
    rw [List.cons_append] at decoded
    rw [List.cons_append, instructionsFrom, decoded]
    simp only [List.length_cons, Nat.add_sub_cancel]
    rw [instructionsFrom_skip, Nat.add_assoc, Nat.add_comm 1]

/-- Instructions are read back from the pieces that they are written to. -/
theorem instructionsFrom_flatten {insns : List Insn} {pieces : List (List UInt8)}
    (each : List.Forall₂ (fun insn piece => insn.Spells pool piece) insns pieces)
    (found : List Located) (offset : Nat) :
    ∃ located, located.map Located.insn = insns ∧
      instructionsFrom pool found 0 offset pieces.flatten = .ok (found.reverse ++ located) := by
  induction each generalizing found offset with
  | nil => exact ⟨[], rfl, by simp [instructionsFrom]⟩
  | @cons insn piece insns pieces head _ ih =>
    obtain ⟨first, same, _, step⟩ := instructionsFrom_spelled head found offset pieces.flatten
    obtain ⟨later, insns_later, run⟩ := ih (first :: found) (offset + piece.length)
    refine ⟨first :: later, ?_, ?_⟩
    · rw [List.map_cons, same, insns_later]
    · rw [List.flatten_cons, step, run]
      simp

end

/-- What is known of the instructions that were written after some progress. -/
structure Written (pool : ConstantPool) (progress : Progress) (insns : List Insn)
    (last : Progress) : Prop where
  pieces : ∃ pieces, List.Forall₂ (fun insn piece => insn.Spells pool piece) insns pieces ∧
    last.written = pieces.reverse ++ progress.written
  maxStack : last.maxStack = (depths progress.depth insns).foldl max progress.maxStack
  maxLocals : last.maxLocals = localSlots progress.maxLocals insns

private theorem Written.cons {pool : ConstantPool} {progress last : Progress} {insn : Insn}
    {rest : List Insn} {pops pushes : Nat} {bytes : List UInt8}
    (effect : insn.stackEffect = .ok (pops, pushes)) (spelled : insn.Spells pool bytes)
    (written : Written pool (progress.add insn pops pushes bytes) rest last) :
    Written pool progress (insn :: rest) last where
  pieces := by
    obtain ⟨pieces, each, all⟩ := written.pieces
    refine ⟨bytes :: pieces, each.cons spelled, ?_⟩
    rw [all, List.reverse_cons, List.append_assoc]
    rfl
  maxStack := by
    rw [written.maxStack, depths, effect]
    rfl
  maxLocals := by
    rw [written.maxLocals, localSlots, localSlots]
    cases used : insn.local? with
    | none => simp [Progress.add, used]
    | some slot => simp [Progress.add, used]

theorem yields_encodeFrom (method : String) (insns : List Insn) (progress : Progress) :
    Yields (encodeFrom method progress insns) fun final last =>
      Written final progress insns last := by
  induction insns generalizing progress with
  | nil => exact .pure fun _ => ⟨⟨[], .nil, rfl⟩, rfl, rfl⟩
  | cons insn rest ih =>
    unfold encodeFrom
    refine (Yields.ofExcept insn.stackEffect).bind ?_
    intro effect
    obtain ⟨pops, pushes⟩ := effect
    simp only
    split
    · exact .throw _
    · refine (Insn.yields_encode insn).bind ?_
      intro bytes
      refine (ih (progress.add insn pops pushes bytes)).mono ?_
      intro final last written spelled effect
      exact written.cons effect spelled

/-- What is known of a body that was written: its instructions are read back, and its numbers are
those of the instructions. -/
structure Encoded.Holds (pool : ConstantPool) (argumentSlots : Nat) (insns : List Insn)
    (encoded : Encoded) : Prop where
  instructions : ∃ located, Code.instructions pool encoded.bytes = .ok located ∧
    located.map Located.insn = insns
  size_le : encoded.bytes.length ≤ maxCodeSize
  maxStack : encoded.maxStack = largestDepth insns
  maxLocals : encoded.maxLocals = localSlots argumentSlots insns

/-- A body is written from the progress that its instructions make. -/
theorem yields_progress (method : String) (argumentSlots : Nat) (insns : List Insn) :
    Yields (encode method argumentSlots insns) fun final encoded =>
      ∃ last, Written final (.start argumentSlots) insns last ∧
        encoded = ⟨last.written.reverse.flatten, last.maxStack, last.maxLocals⟩ ∧
          encoded.bytes.length ≤ maxCodeSize := by
  refine (yields_encodeFrom method insns (.start argumentSlots)).bind ?_
  intro progress
  simp only
  split
  · exact .throw _
  · rename_i fits
    exact .pure fun final written => ⟨progress, written, rfl, Nat.le_of_not_lt fits⟩

/-- The bytes of a body are those of its instructions, one after another. -/
theorem Written.exists_pieces {pool : ConstantPool} {argumentSlots : Nat} {insns : List Insn}
    {last : Progress} (written : Written pool (.start argumentSlots) insns last) :
    ∃ pieces, List.Forall₂ (fun insn piece => insn.Spells pool piece) insns pieces ∧
      last.written.reverse.flatten = pieces.flatten := by
  obtain ⟨pieces, each, all⟩ := written.pieces
  refine ⟨pieces, each, ?_⟩
  rw [all]
  simp [Progress.start]

/-- A written body holds the instructions that it was written for. -/
theorem yields_encode (method : String) (argumentSlots : Nat) (insns : List Insn) :
    Yields (encode method argumentSlots insns) fun final encoded =>
      encoded.Holds final argumentSlots insns := by
  refine (yields_progress method argumentSlots insns).mono ?_
  rintro final encoded ⟨last, written, rfl, fits⟩
  obtain ⟨pieces, each, bytes⟩ := written.exists_pieces
  obtain ⟨located, same, run⟩ := instructionsFrom_flatten each [] 0
  refine ⟨⟨located, ?_, same⟩, fits, written.maxStack, written.maxLocals⟩
  rw [instructions, bytes]
  exact run

end ResourceClasses.ClassFile.Code
