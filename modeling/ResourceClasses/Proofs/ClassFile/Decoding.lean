import ResourceClasses.Proofs.ClassFile.Code
import ResourceClasses.Proofs.ClassFile.Stocked

/-!
Decoding method bodies: the bytes of a body, read one instruction after another with the pool that
writing it leaves, give its instructions and nothing else, and writing it moves no constant.
-/

set_option autoImplicit false

namespace ResourceClasses.ClassFile

open Pooled

namespace Insn

/-- The pushes of ints add at most one constant. -/
private theorem interns_pushBytes (value : Int32) : Interns (pushBytes value) := by
  simp only [pushBytes]
  split
  · exact .pure _
  · split
    · exact .pure _
    · split
      · exact .pure _
      · exact (Interns.integer value).bind fun _ => .pure _

theorem interns_encode (insn : Insn) : Interns insn.encode := by
  cases insn with
  | pushInt value => exact interns_pushBytes value
  | getStatic field => exact (Interns.fieldRef field).bind fun _ => .pure _
  | putStatic field => exact (Interns.fieldRef field).bind fun _ => .pure _
  | invokeStatic method => exact (Interns.methodRef method).bind fun _ => .pure _
  | invokeSpecial method => exact (Interns.methodRef method).bind fun _ => .pure _
  | aload | iload | istore | iadd | dup | newIntArray | iastore | returnVoid => exact .pure _

end Insn

namespace Code

private theorem interns_encodeFrom (method : String) (insns : List Insn) (progress : Progress) :
    Interns (encodeFrom method progress insns) := by
  induction insns generalizing progress with
  | nil => exact .pure _
  | cons insn rest ih =>
    unfold encodeFrom
    refine (Interns.ofExcept insn.stackEffect).bind ?_
    rintro ⟨pops, pushes⟩
    simp only
    split
    · exact .throw _
    · exact insn.interns_encode.bind fun bytes => ih (progress.add insn pops pushes bytes)

/-- Writing a body only adds constants, whether it succeeds or fails. -/
theorem interns_encode (method : String) (argumentSlots : Nat) (insns : List Insn) :
    Interns (encode method argumentSlots insns) := by
  refine (interns_encodeFrom method insns (.start argumentSlots)).bind ?_
  intro progress
  simp only
  split
  · exact .throw _
  · exact .pure _

/-- The instructions that are read from an offset of some bytes, one after another, when the last
one ends where the bytes end. -/
inductive Decodes (pool : ConstantPool) (bytes : List UInt8) : Nat → List Insn → Prop
  | done : Decodes pool bytes bytes.length []
  | next {offset size : Nat} {insn : Insn} {rest : List Insn} (inside : offset < bytes.length)
      (decoded : Insn.decode pool offset (bytes.drop offset) = .ok (insn, size))
      (later : Decodes pool bytes (offset + size) rest) : Decodes pool bytes offset (insn :: rest)

/-- There is only one way to read some bytes. -/
theorem Decodes.unique {pool : ConstantPool} {bytes : List UInt8} {offset : Nat}
    {insns others : List Insn} (one : Decodes pool bytes offset insns)
    (other : Decodes pool bytes offset others) : insns = others := by
  induction one generalizing others with
  | done =>
    cases other with
    | done => rfl
    | next inside => exact absurd inside (Nat.lt_irrefl _)
  | next inside decoded _ ih =>
    cases other with
    | done => exact absurd inside (Nat.lt_irrefl _)
    | next _ again later =>
      rw [decoded, Except.ok.injEq, Prod.mk.injEq] at again
      obtain ⟨rfl, rfl⟩ := again
      rw [ih later]

/-- Instructions are read from the pieces that they are written to, behind any others. -/
private theorem decodes_flatten {pool : ConstantPool} {insns : List Insn}
    {pieces : List (List UInt8)}
    (each : List.Forall₂ (fun insn piece => insn.Spells pool piece) insns pieces)
    (front : List UInt8) : Decodes pool (front ++ pieces.flatten) front.length insns := by
  induction each generalizing front with
  | nil =>
    have whole : front.length = (front ++ ([] : List (List UInt8)).flatten).length := by simp
    rw [whole]
    exact .done
  | @cons insn piece insns pieces head _ ih =>
    have later := ih (front ++ piece)
    rw [List.append_assoc, List.length_append] at later
    have decoded := head front.length pieces.flatten
    refine .next ?_ ?_ later
    · -- An instruction takes at least the byte of its opcode.
      cases piece with
      | nil => exact absurd (head 0 []) (by rintro ⟨⟩)
      | cons => simp
    · rw [List.drop_left]
      exact decoded

private theorem yields_decodes (method : String) (argumentSlots : Nat) (insns : List Insn) :
    Yields (encode method argumentSlots insns) fun final encoded =>
      Decodes final encoded.bytes 0 insns := by
  refine (yields_progress method argumentSlots insns).mono ?_
  rintro final encoded ⟨last, written, rfl, -⟩
  obtain ⟨pieces, each, bytes⟩ := written.exists_pieces
  rw [bytes]
  exact decodes_flatten each []

/-- A body that is written with any pool is read back as its instructions, and as nothing else, with
the pool that writing it leaves; and writing it, whether it succeeds or fails, leaves every constant
at its index. -/
theorem decodes_encode {pool : ConstantPool} (stocked : Stocked pool) (method : String)
    (argumentSlots : Nat) (insns : List Insn) :
    (∀ encoded later, encode method argumentSlots insns pool = .ok encoded later →
      ∀ read, Decodes later encoded.bytes 0 read ↔ read = insns) ∧
    pool.Within ((encode method argumentSlots insns).after pool) := by
  refine ⟨?_, ((interns_encode method argumentSlots insns).grown pool).within⟩
  intro encoded later done read
  obtain ⟨-, holds⟩ :=
    yields_decodes method argumentSlots insns pool encoded later stocked.sound done
  have decodes := holds later (.refl later)
  constructor
  · exact fun other => other.unique decodes
  · rintro rfl
    exact decodes

section

/-- A pool whose first constant takes two slots. -/
def wideFirst : ConstantPool :=
  (PoolCall.intern (.long 7)).run.after .empty

/-- Instructions with a constant and a slot of two bytes. -/
def storeMillion : List Insn :=
  [.pushInt 1000000, .istore 300, .returnVoid]

private theorem wideFirst_eq : wideFirst = ConstantPool.empty.append (.long 7) := by
  have missing : ConstantPool.empty.indices[Constant.long 7]? = none := Std.HashMap.getElem?_empty
  have done : ConstantPool.intern (.long 7) .empty =
      .ok 1 (ConstantPool.empty.append (.long 7)) := by
    rw [ConstantPool.intern, missing]
    rfl
  exact after_of_ok done

theorem storeMillion_encoded :
    encode "m" 0 storeMillion wideFirst =
      .ok ⟨[0x12, 3, 0xc4, 0x36, 1, 44, 0xb1], 1, 301⟩ (wideFirst.append (.integer 1000000)) := by
  have missing : wideFirst.indices[Constant.integer 1000000]? = none := by
    rw [wideFirst_eq, ConstantPool.indices_append, if_neg]
    · exact Std.HashMap.getElem?_empty
    · rintro ⟨never, -⟩
      contradiction
  have added : ConstantPool.integer 1000000 wideFirst =
      .ok 3 (wideFirst.append (.integer 1000000)) := by
    rw [ConstantPool.integer, ConstantPool.intern, missing, wideFirst_eq]
    rfl
  have effect : Pooled.ofExcept (Insn.pushInt 1000000).stackEffect wideFirst =
      .ok (0, 1) wideFirst := rfl
  have pushed : (Insn.pushInt 1000000).encode wideFirst =
      .ok [0x12, 3] (wideFirst.append (.integer 1000000)) := (bind_of_ok added _).trans rfl
  have written : encodeFrom "m" (.start 0) storeMillion wideFirst =
      .ok ⟨3, 0, 1, 301, [[0xb1], [0xc4, 0x36, 1, 44], [0x12, 3]]⟩
        (wideFirst.append (.integer 1000000)) := by
    unfold storeMillion encodeFrom
    refine (bind_of_ok effect _).trans ?_
    exact (bind_of_ok pushed _).trans rfl
  exact (bind_of_ok written _).trans rfl

/-- The constant of a push goes behind one of two slots, and is found there. -/
theorem decodes_encode_wideFirst :
    Stocked wideFirst ∧ ∃ encoded later,
      encode "m" 0 storeMillion wideFirst = .ok encoded later ∧
        Decodes later encoded.bytes 0 storeMillion ∧ wideFirst.Within later := by
  have stocked : Stocked wideFirst := .called .empty (.intern (.long 7))
  obtain ⟨decodes, within⟩ := decodes_encode stocked "m" 0 storeMillion
  rw [after_of_ok storeMillion_encoded] at within
  exact ⟨stocked, _, _, storeMillion_encoded,
    (decodes _ _ storeMillion_encoded storeMillion).mpr rfl, within⟩

end

end Code

end ResourceClasses.ClassFile
