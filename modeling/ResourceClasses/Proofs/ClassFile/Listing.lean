import ResourceClasses.Proofs.ClassFile.Attributes
import ResourceClasses.Proofs.ClassFile.InstructionLine
import ResourceClasses.Proofs.ClassFile.Parts
import ResourceClasses.Proofs.ClassFile.Truncation

/-!
Listings of method bodies: what the lines of the instructions tell of a body that was read.

Main statements:
* `CodeAttribute.instructionLines_eq_iff`: the bodies that have the same lines.
* `CodeAttribute.told_by_lines_iff`: the bodies that are told by their lines from every other one.
-/

set_option autoImplicit false

namespace ResourceClasses.ClassFile

/-- The opcode of the instructions of a kind whose slot stands behind it. -/
def SlotKind.opcode : SlotKind → UInt8
  | aload => 0x19
  | iload => 0x15
  | istore => 0x36

/-- Another kind of instructions on a local slot. -/
def SlotKind.other : SlotKind → SlotKind
  | iload => aload
  | aload | istore => iload

namespace Insn

variable {pool : ConstantPool}

private theorem spells_slot {opcode : UInt8} {kind : SlotKind}
    (known : form? opcode = some (.slot kind)) (slot : UInt8) :
    (kind.insn slot.toUInt16).Spells pool [opcode, slot] := by
  intro offset rest
  rw [List.cons_append, decode_of_form known]
  rfl

private theorem spells_wide (kind : SlotKind) (slot : UInt16) :
    (kind.insn slot).Spells pool (0xc4 :: kind.opcode :: word16 slot) := by
  intro offset rest
  have form (operands : List UInt8) : decode pool offset (0xc4 :: kind.opcode :: operands) =
      (do .ok (kind.insn (← wordAt (offset + 2) operands), 4)) := by
    cases kind <;> rfl
  rw [List.cons_append, List.cons_append, form, wordAt_word16]
  rfl

private theorem form?_of_mem_slotOpcodes {opcode : UInt8} (member : opcode ∈ slotOpcodes) :
    ∃ kind, form? opcode = some (.slot kind) := by
  simp only [slotOpcodes, List.mem_cons, List.not_mem_nil, or_false] at member
  rcases member with rfl | rfl | rfl
  · exact ⟨.iload, rfl⟩
  · exact ⟨.aload, rfl⟩
  · exact ⟨.istore, rfl⟩

private theorem plainMember_insn (kind : SlotKind) (slot : UInt16) :
    (kind.insn slot).PlainMember := by
  intro ref used
  cases kind <;> contradiction

private theorem insn_injective {kind : SlotKind} {slot place : UInt16}
    (same : kind.insn slot = kind.insn place) : slot = place := by
  have slots := congrArg local? same
  rwa [local?_insn, local?_insn, Option.some.injEq] at slots

private theorem insn_other_ne (kind : SlotKind) (slot : UInt16) :
    kind.other.insn slot ≠ kind.insn slot := by
  cases kind <;> intro same <;> cases same

/-- Another instruction that takes as many bytes, from the same opcode on, and is listed alike. -/
structure Twin (pool : ConstantPool) (opcode : UInt8) (operands : List UInt8) (insn : Insn)
    (bytes : List UInt8) (twin : Insn) : Prop where
  length : bytes.length = operands.length
  spelled : twin.Spells pool (opcode :: bytes)
  alike : insn.ListedAlike twin
  plain : twin.PlainMember
  ne : twin ≠ insn

/-- A blurred instruction is mistaken for another one. -/
private theorem exists_twin {offset : Nat} {opcode : UInt8} {operands : List UInt8} {insn : Insn}
    (spelled : insn.Spells pool (opcode :: operands))
    (blurred : Code.Located.Blurred ⟨offset, opcode, insn⟩) :
    ∃ bytes twin, Twin pool opcode operands insn bytes twin := by
  obtain ⟨form, known, made, sized⟩ := Code.formed_of_spelled spelled
  rcases blurred with widened | ⟨slotted, slot, used, small⟩
  · have opcode_wide : opcode = 0xc4 := widened
    subst opcode_wide
    cases known
    obtain ⟨kind, slot, rfl⟩ := made
    refine ⟨kind.other.opcode :: word16 slot, kind.other.insn slot, ?_, spells_wide _ _, ?_,
      plainMember_insn _ _, insn_other_ne _ _⟩
    · exact Nat.succ.inj sized
    · exact .inr ⟨slot, slot, local?_insn _ _, local?_insn _ _, .inl rfl⟩
  · obtain ⟨kind, slot_form⟩ := form?_of_mem_slotOpcodes slotted
    rw [slot_form] at known
    cases known
    obtain ⟨place, rfl⟩ := made
    rw [local?_insn, Option.some.injEq] at used
    subst used
    -- One of the slots 0 and 1 is not the slot of the instruction.
    obtain ⟨byte, low, ne⟩ : ∃ byte : UInt8, byte.toUInt16.toNat ≤ 3 ∧ byte.toUInt16 ≠ place := by
      by_cases zero : place = 0
      · exact ⟨1, by decide, by rw [zero]; decide⟩
      · exact ⟨0, by decide, Ne.symm zero⟩
    refine ⟨[byte], kind.insn byte.toUInt16, ?_, spells_slot slot_form byte, ?_,
      plainMember_insn _ _, fun same => ne (insn_injective same)⟩
    · exact Nat.succ.inj sized
    · exact .inr ⟨place, byte.toUInt16, local?_insn _ _, local?_insn _ _, .inr ⟨small, low⟩⟩

end Insn

namespace Code

theorem Located.ListedAlike.refl (located : Located) : located.ListedAlike located :=
  ⟨rfl, rfl, .inl rfl⟩

theorem Listed.length_eq_of_alike {pool pool' : ConstantPool} {offset offset' : Nat}
    {bytes others : List UInt8} {located found : List Located}
    (listed : Listed pool offset bytes located) (listed_other : Listed pool' offset' others found)
    (alike : List.Forall₂ Located.ListedAlike located found) : others.length = bytes.length := by
  rw [listed.length_eq, listed_other.length_eq, map_eq_of_forall₂ alike fun _ _ both =>
    congrArg opcodeSize both.opcode.symm]

/-- A body with a blurred instruction is mistaken for one that has another instruction in its
place. -/
private theorem Listed.exists_alike {pool : ConstantPool} {offset : Nat} {bytes : List UInt8}
    {located : List Located} (listed : Listed pool offset bytes located)
    (plain : ∀ one ∈ located, one.insn.PlainMember) (blurred : ∃ one ∈ located, one.Blurred) :
    ∃ others found, Listed pool offset others found ∧
      List.Forall₂ Located.ListedAlike located found ∧ (∀ one ∈ found, one.insn.PlainMember) ∧
        found ≠ located := by
  induction listed with
  | nil =>
    obtain ⟨_, member, -⟩ := blurred
    cases member
  | @cons offset opcode operands rest insn later spelled listed ih =>
    rw [List.forall_mem_cons] at plain
    rw [List.exists_mem_cons_iff] at blurred
    rcases blurred with head | behind
    · obtain ⟨bytes, twin, both⟩ := Insn.exists_twin spelled head
      have same_rest : List.Forall₂ Located.ListedAlike later later :=
        List.forall₂_same.mpr fun one _ => .refl one
      rw [← both.length] at listed
      refine ⟨_, _, .cons both.spelled listed, .cons ⟨rfl, rfl, both.alike⟩ same_rest,
        List.forall_mem_cons.mpr ⟨both.plain, plain.2⟩, fun same => both.ne ?_⟩
      exact congrArg Located.insn (List.cons.inj same).1
    · obtain ⟨others, found, listed_others, alike, plain_others, ne⟩ := ih plain.2 behind
      exact ⟨_, _, .cons spelled listed_others, .cons (.refl _) alike,
        List.forall_mem_cons.mpr ⟨plain.1, plain_others⟩, fun same => ne (List.cons.inj same).2⟩

end Code

namespace CodeAttribute

/-- Whether the code of a method is what the reader makes of some content. -/
def Accepted (code : CodeAttribute) : Prop :=
  ∃ pool content, attributeOf pool KnownAttribute.code.name content = .ok (.code code)

/-- Whether the members that some code refers to are plain. -/
def PlainMembers (code : CodeAttribute) : Prop :=
  ∀ located ∈ code.instructions, located.insn.PlainMember

/-- The code that is accepted is short enough for its length to be read, and is read in full. -/
theorem accepted_iff {code : CodeAttribute} :
    code.Accepted ↔ code.bytes.length < 0x100000000 ∧
      ∃ pool, Code.Listed pool 0 code.bytes code.instructions := by
  constructor
  · rintro ⟨pool, content, read⟩
    obtain ⟨short, decoded⟩ := code_of_attributeOf read
    exact ⟨short, pool, Code.instructions_eq_ok_iff.mp decoded⟩
  · rintro ⟨short, pool, listed⟩
    have decoded := Code.instructions_eq_ok_iff.mpr listed
    have handlers : Reads (Reader.number 2) (word16 0) 0 := Reads.count (by decide)
    have no_handlers : Reads (Reader.take (8 * 0)) [] [] := Reads.take []
    have reads : Reads (readKnown pool KnownAttribute.code)
        (word16 code.maxStack ++ (word16 code.maxLocals ++ (bigEndian 4 code.bytes.length ++
          (code.bytes ++ (word16 0 ++ ([] ++ word16 0)))))) (.code code) := by
      refine Reads.map ?_ Attribute.code
      refine (Reads.twoBytes _).bind ((Reads.twoBytes _).bind
        ((Reads.length short).bind ((Reads.take _).bind ?_)))
      refine handlers.bind (no_handlers.bind ((Reads.counted_nil _).bind_nil ?_))
      exact (Reads.ofExcept decoded).bind_nil (Reads.pure _)
    exact ⟨pool, _, attributeOf_of_reads reads⟩

private theorem forall₂_of_mem {α β : Type} {related implied : α → β → Prop} {first : List α}
    {second : List β} (each : List.Forall₂ related first second)
    (implies : ∀ item ∈ first, ∀ other ∈ second, related item other → implied item other) :
    List.Forall₂ implied first second := by
  rw [List.forall₂_iff_zip] at each ⊢
  refine ⟨each.1, fun pair => ?_⟩
  obtain ⟨left, right⟩ := List.of_mem_zip pair
  exact implies _ left _ right (each.2 pair)

variable {code other : CodeAttribute}

/-- The bodies that have the same lines are those with instructions of the same opcodes at the same
offsets, the same ones but for slots among the first four and what is widened. -/
theorem instructionLines_eq_iff (accepted : code.Accepted) (accepted_other : other.Accepted)
    (plain : code.PlainMembers) (plain_other : other.PlainMembers) :
    code.instructionLines = other.instructionLines ↔
      List.Forall₂ Code.Located.ListedAlike code.instructions other.instructions := by
  obtain ⟨-, pool, listed⟩ := accepted_iff.mp accepted
  obtain ⟨-, pool', listed_other⟩ := accepted_iff.mp accepted_other
  constructor
  · intro same
    rw [instructionLines, instructionLines, ← List.forall₂_eq_eq_eq, List.forall₂_map_left_iff,
      List.forall₂_map_right_iff] at same
    refine forall₂_of_mem same fun one member two member_other line => ?_
    exact Code.Located.listedAlike_of_line (listed.formed one member)
      (listed_other.formed two member_other) (plain one member) (plain_other two member_other) line
  · intro alike
    rw [instructionLines, instructionLines, listed.length_eq_of_alike listed_other alike]
    exact (map_eq_of_forall₂ alike fun _ _ both => (both.line_eq _).symm).symm

/-- Bodies with the same lines have the same instructions when nothing in the one is blurred. -/
private theorem instructions_eq_of_sharp (accepted : code.Accepted)
    (accepted_other : other.Accepted)
    (alike : List.Forall₂ Code.Located.ListedAlike code.instructions other.instructions)
    (sharp : ∀ located ∈ code.instructions, ¬ located.Blurred) :
    code.instructions = other.instructions := by
  obtain ⟨-, pool, listed⟩ := accepted_iff.mp accepted
  obtain ⟨-, pool', listed_other⟩ := accepted_iff.mp accepted_other
  have equal := forall₂_of_mem alike fun one member two member_other both =>
    both.eq (listed.formed one member) (listed_other.formed two member_other) (sharp one member)
  rwa [List.forall₂_eq_eq_eq] at equal

/-- A body is told by its lines from every body with other instructions exactly if none of its
instructions is blurred. -/
theorem told_by_lines_iff (accepted : code.Accepted) (plain : code.PlainMembers) :
    (∀ other : CodeAttribute, other.Accepted → other.PlainMembers →
      code.instructionLines = other.instructionLines → code.instructions = other.instructions) ↔
      ∀ located ∈ code.instructions, ¬ located.Blurred := by
  constructor
  · intro told located member blurred
    obtain ⟨short, pool, listed⟩ := accepted_iff.mp accepted
    obtain ⟨others, found, listed_others, alike, plain_others, ne⟩ :=
      listed.exists_alike plain ⟨located, member, blurred⟩
    rw [← listed.length_eq_of_alike listed_others alike] at short
    have accepted_other : Accepted ⟨code.maxStack, code.maxLocals, others, found⟩ :=
      accepted_iff.mpr ⟨short, pool, listed_others⟩
    exact ne (told _ accepted_other plain_others
      ((instructionLines_eq_iff accepted accepted_other plain plain_others).mpr alike)).symm
  · intro sharp other accepted_other plain_other same
    exact instructions_eq_of_sharp accepted accepted_other
      ((instructionLines_eq_iff accepted accepted_other plain plain_other).mp same) sharp

section

/-- A pool with a static field, at index 6. -/
private def fieldPool : ConstantPool :=
  [.utf8 "a/R$id", .classInfo 1, .utf8 "one", .utf8 "I", .nameAndType 3 4, .fieldRef 2 5].foldl
    ConstantPool.append .empty

/-- A body that loads a static field, and then a slot that stands behind its opcode. -/
def loading (slot : UInt8) : CodeAttribute where
  maxStack := 2
  maxLocals := 5
  bytes := [0xb2, 0, 6, 0x19, slot, 0xb1]
  instructions :=
    [⟨0, 0xb2, .getStatic ⟨"a/R$id", "one", "I"⟩⟩, ⟨3, 0x19, .aload slot.toUInt16⟩,
      ⟨5, 0xb1, .returnVoid⟩]

private theorem accepted_loading (slot : UInt8) : (loading slot).Accepted :=
  accepted_iff.mpr ⟨by simp [loading], fieldPool, Code.instructions_eq_ok_iff.mp rfl⟩

private theorem plain_loading (slot : UInt8) : (loading slot).PlainMembers := by
  intro located member
  simp only [loading, List.mem_cons, List.not_mem_nil, or_false] at member
  rcases member with rfl | rfl | rfl
  · rintro ref ⟨⟩
    exact ⟨by decide, by decide, by decide⟩
  · rintro ref ⟨⟩
  · rintro ref ⟨⟩

/-- A body whose only slot has a number of its own in its line is told by its lines. -/
theorem told_by_lines_loadingFour :
    (loading 4).Accepted ∧ (loading 4).PlainMembers ∧ ∀ other : CodeAttribute, other.Accepted →
      other.PlainMembers → (loading 4).instructionLines = other.instructionLines →
        (loading 4).instructions = other.instructions := by
  have accepted := accepted_loading 4
  have plain := plain_loading 4
  refine ⟨accepted, plain, (told_by_lines_iff accepted plain).mpr ?_⟩
  intro located member
  simp only [loading, List.mem_cons, List.not_mem_nil, or_false] at member
  rcases member with rfl | rfl | rfl
  · rintro (widened | ⟨slotted, -⟩)
    · exact absurd widened (by decide)
    · exact absurd slotted (by decide)
  · rintro (widened | ⟨-, slot, used, small⟩)
    · exact absurd widened (by decide)
    · cases used
      exact absurd small (by decide)
  · rintro (widened | ⟨slotted, -⟩)
    · exact absurd widened (by decide)
    · exact absurd slotted (by decide)

/-- A load of slot 1 in two bytes is listed as one of slot 2. -/
theorem not_told_by_lines_loadingOne :
    (loading 1).Accepted ∧ (loading 2).Accepted ∧ (loading 1).PlainMembers ∧
      (loading 2).PlainMembers ∧ (loading 1).instructionLines = (loading 2).instructionLines ∧
        (loading 1).instructions ≠ (loading 2).instructions := by
  have alike : List.Forall₂ Code.Located.ListedAlike (loading 1).instructions
      (loading 2).instructions :=
    .cons (.refl _) (.cons
      ⟨rfl, rfl, .inr ⟨1, 2, rfl, rfl, .inr ⟨by decide, by decide⟩⟩⟩ (.cons (.refl _) .nil))
  refine ⟨accepted_loading 1, accepted_loading 2, plain_loading 1, plain_loading 2, ?_, by decide⟩
  exact (instructionLines_eq_iff (accepted_loading 1) (accepted_loading 2) (plain_loading 1)
    (plain_loading 2)).mpr alike

end

end CodeAttribute

end ResourceClasses.ClassFile
