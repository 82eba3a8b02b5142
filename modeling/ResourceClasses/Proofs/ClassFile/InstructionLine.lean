import Mathlib.Data.List.Nodup
import ResourceClasses.Proofs.ClassFile.Forms
import ResourceClasses.Proofs.Text.Decimal

/-!
Lines of instructions: what the line of an instruction tells of it.

A line tells the offset, the opcode and the operand text of its instruction. The operand text tells
an int, an array and a member, but a local slot only if it is not one of the first four, whatever
the opcode; and of a widened opcode it tells the slot alone.

Main statements:
* `Code.Located.ListedAlike.line_eq`, `Code.Located.listedAlike_of_line`: the instructions that have
  the same line.
* `Code.Located.ListedAlike.eq`: those that no other one has the line of.
-/

set_option autoImplicit false

namespace ResourceClasses.ClassFile

/-- The opcodes that can be read. -/
def readableOpcodes : List UInt8 :=
  [0x02, 0x03, 0x04, 0x05, 0x06, 0x07, 0x08, 0x10, 0x11, 0x12, 0x13, 0x15, 0x19, 0x1a, 0x1b, 0x1c,
    0x1d, 0x2a, 0x2b, 0x2c, 0x2d, 0x36, 0x3b, 0x3c, 0x3d, 0x3e, 0x4f, 0x59, 0x60, 0xb1, 0xb2, 0xb3,
    0xb7, 0xb8, 0xbc, 0xc4]

private theorem exists_eq_ofNat (opcode : UInt8) : ∃ n < 256, opcode = UInt8.ofNat n :=
  ⟨opcode.toNat, opcode.toNat_lt, UInt8.ofNat_toNat.symm⟩

private theorem mem_readableOpcodes {opcode : UInt8} {form : Form}
    (known : form? opcode = some form) : opcode ∈ readableOpcodes := by
  have each : ∀ n < 256, (form? (UInt8.ofNat n)).isSome → UInt8.ofNat n ∈ readableOpcodes := by
    decide +kernel
  obtain ⟨n, small, rfl⟩ := exists_eq_ofNat opcode
  exact each n small (Option.isSome_of_eq_some known)

/-- The opcodes of the instructions on a local slot that stands behind them. -/
def slotOpcodes : List UInt8 :=
  [0x15, 0x19, 0x36]

private theorem mem_slotOpcodes {opcode : UInt8} {kind : SlotKind}
    (known : form? opcode = some (.slot kind)) : opcode ∈ slotOpcodes := by
  have each : ∀ n < 256, ∀ kind ∈ [SlotKind.aload, .iload, .istore],
      form? (UInt8.ofNat n) = some (.slot kind) → UInt8.ofNat n ∈ slotOpcodes := by
    decide +kernel
  have listed : kind ∈ [SlotKind.aload, .iload, .istore] := by cases kind <;> decide
  obtain ⟨n, small, rfl⟩ := exists_eq_ofNat opcode
  exact each n small kind listed known

private theorem eq_wideOpcode {opcode : UInt8} (known : form? opcode = some .wide) :
    opcode = 0xc4 := by
  have each : ∀ n < 256, form? (UInt8.ofNat n) = some .wide → UInt8.ofNat n = 0xc4 := by
    decide +kernel
  obtain ⟨n, small, rfl⟩ := exists_eq_ofNat opcode
  exact each n small known

/-- The opcodes that can be read have mnemonics of their own. -/
private theorem mnemonic_injective {opcode other : UInt8} (readable : opcode ∈ readableOpcodes)
    (readable_other : other ∈ readableOpcodes) (same : mnemonic opcode = mnemonic other) :
    opcode = other := by
  have distinct : (readableOpcodes.map mnemonic).Nodup := by decide +kernel
  exact List.inj_on_of_nodup_map distinct readable readable_other same

private theorem blank_notMem_mnemonic {opcode : UInt8} (readable : opcode ∈ readableOpcodes) :
    ' ' ∉ (mnemonic opcode).toList := by
  have each : ∀ opcode ∈ readableOpcodes, ' ' ∉ (mnemonic opcode).toList := by decide +kernel
  exact each opcode readable

/-- A front without a character, before that character, is no more than a front of any other such
text. -/
private theorem eq_nil_of_cons_eq_append {c : Char} {front more rest others : List Char}
    (first : c ∉ front ++ more) (same : c :: rest = more ++ c :: others) : more = [] := by
  cases more with
  | nil => rfl
  | cons d later =>
    obtain ⟨rfl, -⟩ := List.cons.inj same
    exact absurd (List.mem_append_right front List.mem_cons_self) first

/-- Two texts are split alike at the first place of a character. -/
private theorem eq_of_append_cons {c : Char} {front other rest others : List Char}
    (first : c ∉ front) (first_other : c ∉ other)
    (same : front ++ c :: rest = other ++ c :: others) : front = other ∧ rest = others := by
  have fronts : front = other := by
    rcases List.append_eq_append_iff.mp same with ⟨more, rfl, tail⟩ | ⟨more, rfl, tail⟩
    · rw [eq_nil_of_cons_eq_append first_other tail, List.append_nil]
    · rw [eq_nil_of_cons_eq_append first tail, List.append_nil]
  rw [fronts, List.append_cancel_left_eq] at same
  exact ⟨fronts, (List.cons.inj same).2⟩

/-- Whether no text of a member has a dot, a colon or a blank in it. -/
structure MemberRef.Plain (ref : MemberRef) : Prop where
  dot : '.' ∉ ref.owner.toList ++ ref.name.toList ++ ref.descriptor.toList
  colon : ':' ∉ ref.owner.toList ++ ref.name.toList ++ ref.descriptor.toList
  blank : (ref.owner.toList ++ ref.name.toList ++ ref.descriptor.toList).any Char.isWhitespace =
    false

private theorem MemberRef.Plain.dot_owner {ref : MemberRef} (plain : ref.Plain) :
    '.' ∉ ref.owner.toList := fun member =>
  plain.dot (List.mem_append_left _ (List.mem_append_left _ member))

private theorem MemberRef.Plain.colon_name {ref : MemberRef} (plain : ref.Plain) :
    ':' ∉ ref.name.toList := fun member =>
  plain.colon (List.mem_append_left _ (List.mem_append_right _ member))

private theorem MemberRef.toList_text (ref : MemberRef) :
    ref.text.toList =
      ref.owner.toList ++ '.' :: (ref.name.toList ++ ':' :: ref.descriptor.toList) := by
  simp [MemberRef.text, String.toList_append]

theorem MemberRef.text_injective {ref other : MemberRef} (plain : ref.Plain)
    (plain_other : other.Plain) (same : ref.text = other.text) : ref = other := by
  have texts := congrArg String.toList same
  rw [toList_text, toList_text] at texts
  obtain ⟨owners, behind⟩ := eq_of_append_cons plain.dot_owner plain_other.dot_owner texts
  obtain ⟨names, descriptors⟩ := eq_of_append_cons plain.colon_name plain_other.colon_name behind
  cases ref
  cases other
  simp only [MemberRef.mk.injEq]
  exact ⟨String.toList_injective owners, String.toList_injective names,
    String.toList_injective descriptors⟩

namespace Insn

def member? : Insn → Option MemberRef
  | getStatic ref | putStatic ref | invokeStatic ref | invokeSpecial ref => some ref
  | _ => none

/-- Whether the member of an instruction, if it has one, is plain. -/
def PlainMember (insn : Insn) : Prop :=
  ∀ ref, insn.member? = some ref → ref.Plain

@[simp]
theorem local?_insn (kind : SlotKind) (slot : UInt16) : (kind.insn slot).local? = some slot := by
  cases kind <;> rfl

@[simp]
theorem member?_insn (kind : MemberKind) (ref : MemberRef) :
    (kind.insn ref).member? = some ref := by
  cases kind <;> rfl

/-- A slot that is not one of the first four is told by its number. -/
theorem operandText?_of_local? {insn : Insn} {slot : UInt16} (used : insn.local? = some slot)
    (opcode : UInt8) :
    insn.operandText? opcode = if slot.toNat > 3 then some (Nat.repr slot.toNat) else none := by
  cases insn with
  | aload | iload | istore =>
    cases used
    rfl
  | _ => contradiction

theorem operandText?_of_member? {insn : Insn} {ref : MemberRef} (used : insn.member? = some ref)
    (opcode : UInt8) : insn.operandText? opcode = some ref.text := by
  cases insn with
  | getStatic | putStatic | invokeStatic | invokeSpecial =>
    cases used
    rfl
  | _ => contradiction

/-- Two slots are listed alike when they are the same, or when both are among the first four. -/
def SlotsAlike (slot other : UInt16) : Prop :=
  slot = other ∨ slot.toNat ≤ 3 ∧ other.toNat ≤ 3

/-- Whether two instructions of one opcode are listed alike: they are the same, or they are on slots
that are listed alike. -/
def ListedAlike (insn other : Insn) : Prop :=
  insn = other ∨ ∃ slot place, insn.local? = some slot ∧ other.local? = some place ∧
    SlotsAlike slot place

private theorem slotText_eq_iff {slot place : UInt16} :
    ((if slot.toNat > 3 then some (Nat.repr slot.toNat) else none) =
      if place.toNat > 3 then some (Nat.repr place.toNat) else none) ↔ SlotsAlike slot place := by
  rw [SlotsAlike, ← UInt16.toNat_inj]
  split_ifs
  · rw [Option.some.injEq, Text.repr_inj]
    omega
  · simp only [false_iff]
    omega
  · simp only [false_iff]
    omega
  · simp only [true_iff]
    omega

private theorem decimal_ne_empty (value : Int32) : decimal value ≠ "" := by
  obtain ⟨digits, written, some_digit, -⟩ := exists_digits_decimal value
  intro empty
  rw [empty, String.toList_empty] at written
  rcases written with nothing | nothing
  · exact some_digit nothing.symm
  · cases nothing

private theorem text_ne_empty (ref : MemberRef) : ref.text ≠ "" := by
  intro empty
  have texts := ref.toList_text
  rw [empty, String.toList_empty] at texts
  simp at texts

/-- An operand that is listed has a text. -/
private theorem operandText?_ne_empty (insn : Insn) (opcode : UInt8) :
    insn.operandText? opcode ≠ some "" := by
  intro operand
  cases insn with
  | pushInt value =>
    change (if _ then none else some (decimal value)) = some "" at operand
    split at operand
    · cases operand
    · exact decimal_ne_empty value (Option.some.inj operand)
  | aload slot | iload slot | istore slot =>
    rw [operandText?_of_local? rfl] at operand
    split at operand
    · exact Text.repr_ne_nil _ (String.toList_eq_nil_iff.mpr (Option.some.inj operand))
    · cases operand
  | getStatic ref | putStatic ref | invokeStatic ref | invokeSpecial ref =>
    rw [operandText?_of_member? rfl] at operand
    exact text_ne_empty ref (Option.some.inj operand)
  | newIntArray => exact absurd (Option.some.inj operand) (by decide)
  | iadd | dup | iastore | returnVoid => cases operand

/-- Two instructions on local slots have the same operand text exactly if they are listed alike. -/
private theorem operandText?_eq_iff_of_local? {insn other : Insn} {slot place : UInt16}
    (used : insn.local? = some slot) (used_other : other.local? = some place) (opcode : UInt8) :
    insn.operandText? opcode = other.operandText? opcode ↔ SlotsAlike slot place := by
  rw [operandText?_of_local? used, operandText?_of_local? used_other, slotText_eq_iff]

/-- An opcode that does not name its whole instruction names no int. -/
private theorem operandText?_pushInt {opcode : UInt8} {form : Form}
    (known : form? opcode = some form) (partly : ∀ only, form ≠ .whole only) (value : Int32) :
    (pushInt value).operandText? opcode = some (decimal value) := by
  refine if_neg ?_
  intro small
  rw [form?, if_pos small] at known
  exact partly _ (Option.some.inj known).symm

private theorem listedAlike_of_local? {insn other : Insn} {slot place : UInt16} {opcode : UInt8}
    (used : insn.local? = some slot) (used_other : other.local? = some place)
    (same : insn.operandText? opcode = other.operandText? opcode) : insn.ListedAlike other :=
  .inr ⟨slot, place, used, used_other,
    (operandText?_eq_iff_of_local? used used_other opcode).mp same⟩

theorem ListedAlike.operandText?_eq {insn other : Insn} (alike : insn.ListedAlike other)
    (opcode : UInt8) : insn.operandText? opcode = other.operandText? opcode := by
  rcases alike with rfl | ⟨slot, place, used, used_other, slots⟩
  · rfl
  · exact (operandText?_eq_iff_of_local? used used_other opcode).mpr slots

/-- What the operand text of an instruction tells of the instructions that its opcode can stand
for. -/
theorem listedAlike_of_operandText? {form : Form} {opcode : UInt8}
    (known : form? opcode = some form) {insn other : Insn} (made : form.Makes insn)
    (made_other : form.Makes other) (plain : insn.PlainMember) (plain_other : other.PlainMember)
    (same : insn.operandText? opcode = other.operandText? opcode) : insn.ListedAlike other := by
  cases form with
  | whole only => exact .inl (made.trans made_other.symm)
  | array => exact .inl (made.trans made_other.symm)
  | byteInt | wordInt | byteConstant | wordConstant =>
    obtain ⟨value, rfl⟩ := made
    obtain ⟨value', rfl⟩ := made_other
    rw [operandText?_pushInt known (by simp), operandText?_pushInt known (by simp),
      Option.some.injEq] at same
    rw [decimal_injective same]
    exact .inl rfl
  | member kind =>
    obtain ⟨ref, rfl⟩ := made
    obtain ⟨ref', rfl⟩ := made_other
    rw [operandText?_of_member? (member?_insn kind ref),
      operandText?_of_member? (member?_insn kind ref'), Option.some.injEq] at same
    have ref_same := MemberRef.text_injective (plain ref (member?_insn kind ref))
      (plain_other ref' (member?_insn kind ref')) same
    rw [ref_same]
    exact .inl rfl
  | slot kind =>
    obtain ⟨slot, rfl⟩ := made
    obtain ⟨place, rfl⟩ := made_other
    exact listedAlike_of_local? (local?_insn kind slot) (local?_insn kind place) same
  | wide =>
    obtain ⟨kind, slot, rfl⟩ := made
    obtain ⟨kind', place, rfl⟩ := made_other
    exact listedAlike_of_local? (local?_insn kind slot) (local?_insn kind' place) same

/-- Instructions of one form that are listed alike are the same, unless they are widened or on slots
among the first four that stand behind their opcode. -/
private theorem ListedAlike.eq {form : Form} {insn other : Insn} (alike : insn.ListedAlike other)
    (made : form.Makes insn) (made_other : form.Makes other) (narrow : form ≠ .wide)
    (high : ∀ kind, form = .slot kind → ∀ slot, insn.local? = some slot → 3 < slot.toNat) :
    insn = other := by
  rcases alike with same | ⟨slot, place, used, used_other, slots⟩
  · exact same
  · cases form with
    | whole only => exact made.trans made_other.symm
    | array => exact made.trans made_other.symm
    | wide => exact absurd rfl narrow
    | slot kind =>
      have above := high kind rfl slot used
      have slots_same : slot = place :=
        slots.resolve_right fun both => Nat.not_le_of_gt above both.1
      obtain ⟨first, rfl⟩ := made
      obtain ⟨second, rfl⟩ := made_other
      rw [local?_insn, Option.some.injEq] at used used_other
      rw [used, used_other, slots_same]
    | byteInt | wordInt | byteConstant | wordConstant =>
      obtain ⟨value, rfl⟩ := made
      contradiction
    | member kind =>
      obtain ⟨ref, rfl⟩ := made
      cases kind <;> contradiction

end Insn

namespace Code.Located

/-- What stands behind the mnemonic in a line. -/
def operandTail : Option String → List Char
  | some text => ' ' :: text.toList
  | none => []

private theorem toList_alignedRight (width : Nat) (text : String) :
    (alignedRight width text).toList =
      List.replicate (width - text.length) ' ' ++ text.toList := by
  rw [alignedRight, String.toList_append, String.toList_ofList]

/-- The parts of a line: blanks, the offset, a colon, the mnemonic and the operand. -/
private theorem toList_line (located : Located) (width : Nat) :
    (located.line width).toList =
      (List.replicate (4 + (width - (Nat.repr located.offset).length)) ' ' ++
        (Nat.repr located.offset).toList) ++
        ':' :: ' ' :: ((mnemonic located.opcode).toList ++
          operandTail (located.insn.operandText? located.opcode)) := by
  have head (tail : List Char) :
      ("    " ++ alignedRight width (Nat.repr located.offset) ++ ": " ++
        mnemonic located.opcode).toList ++ tail =
      (List.replicate (4 + (width - (Nat.repr located.offset).length)) ' ' ++
        (Nat.repr located.offset).toList) ++
        ':' :: ' ' :: ((mnemonic located.opcode).toList ++ tail) := by
    have indent : "    ".toList = List.replicate 4 ' ' := rfl
    have colon : ": ".toList = [':', ' '] := rfl
    simp only [String.toList_append, toList_alignedRight, indent, colon, List.append_assoc,
      List.replicate_add, List.cons_append, List.nil_append]
  unfold line
  cases operand : located.insn.operandText? located.opcode with
  | none => exact (List.append_nil _).symm.trans (head [])
  | some text =>
    have some_text : text.isEmpty = false := by
      rw [String.isEmpty_eq_false_iff]
      rintro rfl
      exact Insn.operandText?_ne_empty _ _ operand
    have blank : " ".toList = [' '] := rfl
    simp only [some_text, Bool.false_eq_true, if_false]
    rw [String.toList_append, String.toList_append, List.append_assoc, head, blank]
    rfl

private theorem notMem_digits {c : Char} (other : Text.isDigit 10 c = false) (n : Nat) :
    c ∉ (Nat.repr n).toList := by
  intro member
  have digit := Text.isDigit_repr n c member
  rw [other] at digit
  contradiction

/-- The blanks before an offset do not hide it. -/
private theorem eq_of_blanks {m n blanks others : Nat}
    (same : List.replicate blanks ' ' ++ (Nat.repr m).toList =
      List.replicate others ' ' ++ (Nat.repr n).toList) : m = n := by
  have digits (blanks n : Nat) :
      (List.replicate blanks ' ' ++ (Nat.repr n).toList).filter (· ≠ ' ') =
        (Nat.repr n).toList := by
    have no_blank : ' ' ∉ (Nat.repr n).toList := notMem_digits (by decide) n
    rw [List.filter_append, List.filter_replicate, if_neg (by decide), List.nil_append,
      List.filter_eq_self]
    intro c member
    rw [decide_eq_true_eq]
    rintro rfl
    exact no_blank member
  have filtered := congrArg (List.filter (· ≠ ' ')) same
  rw [digits, digits] at filtered
  exact Text.repr_inj.mp (String.toList_injective filtered)

/-- A mnemonic ends at the first blank behind it, or at the end of its line. -/
private theorem eq_of_operandTail {first second : List Char} {operand other : Option String}
    (blank : ' ' ∉ first) (blank_other : ' ' ∉ second)
    (same : first ++ operandTail operand = second ++ operandTail other) :
    first = second ∧ operand = other := by
  cases operand with
  | none =>
    cases other with
    | none =>
      simp only [operandTail, List.append_nil] at same
      exact ⟨same, rfl⟩
    | some text =>
      have longer : first = second ++ ' ' :: text.toList := (List.append_nil _).symm.trans same
      rw [longer] at blank
      exact absurd (List.mem_append_right _ List.mem_cons_self) blank
  | some text =>
    cases other with
    | none =>
      have longer : first ++ ' ' :: text.toList = second := same.trans (List.append_nil _)
      rw [← longer] at blank_other
      exact absurd (List.mem_append_right _ List.mem_cons_self) blank_other
    | some text' =>
      obtain ⟨mnemonics, texts⟩ := eq_of_append_cons blank blank_other same
      rw [String.toList_injective texts]
      exact ⟨mnemonics, rfl⟩

/-- A line tells the offset, the opcode and the operand text of its instruction, whatever the width
of the offsets. -/
private theorem told_of_line {located other : Located} {width width' : Nat}
    (formed : located.Formed) (formed_other : other.Formed)
    (same : located.line width = other.line width') :
    located.offset = other.offset ∧ located.opcode = other.opcode ∧
      located.insn.operandText? located.opcode = other.insn.operandText? other.opcode := by
  obtain ⟨form, known, -⟩ := formed
  obtain ⟨form', known', -⟩ := formed_other
  have readable := mem_readableOpcodes known
  have readable_other := mem_readableOpcodes known'
  have colon (blanks n : Nat) : ':' ∉ List.replicate blanks ' ' ++ (Nat.repr n).toList := by
    rw [List.mem_append, List.mem_replicate]
    rintro (⟨-, blank⟩ | digit)
    · exact absurd blank (by decide)
    · exact notMem_digits (by decide) n digit
  have texts := congrArg String.toList same
  rw [toList_line, toList_line] at texts
  obtain ⟨offsets, behind⟩ := eq_of_append_cons (colon _ _) (colon _ _) texts
  obtain ⟨mnemonics, operands⟩ := eq_of_operandTail (blank_notMem_mnemonic readable)
    (blank_notMem_mnemonic readable_other) (List.cons.inj behind).2
  exact ⟨eq_of_blanks offsets,
    mnemonic_injective readable readable_other (String.toList_injective mnemonics), operands⟩

/-- Whether two instructions cannot be told by their lines: they stand at one offset with one
opcode, and are listed alike. -/
structure ListedAlike (located other : Located) : Prop where
  offset : located.offset = other.offset
  opcode : located.opcode = other.opcode
  insn : located.insn.ListedAlike other.insn

/-- Whether the line of an instruction leaves something out: which of the first four slots stands
behind an opcode, or what is widened. -/
def Blurred (located : Located) : Prop :=
  located.opcode = 0xc4 ∨ located.opcode ∈ slotOpcodes ∧
    ∃ slot, located.insn.local? = some slot ∧ slot.toNat ≤ 3

theorem ListedAlike.line_eq {located other : Located} (alike : located.ListedAlike other)
    (width : Nat) : located.line width = other.line width := by
  rw [line, line, alike.offset, alike.opcode, alike.insn.operandText?_eq]

theorem listedAlike_of_line {located other : Located} {width width' : Nat}
    (formed : located.Formed) (formed_other : other.Formed) (plain : located.insn.PlainMember)
    (plain_other : other.insn.PlainMember) (same : located.line width = other.line width') :
    located.ListedAlike other := by
  obtain ⟨offsets, opcodes, operands⟩ := told_of_line formed formed_other same
  obtain ⟨form, known, made⟩ := formed
  obtain ⟨form', known', made_other⟩ := formed_other
  rw [← opcodes, known, Option.some.injEq] at known'
  rw [← known'] at made_other
  rw [← opcodes] at operands
  exact ⟨offsets, opcodes,
    Insn.listedAlike_of_operandText? known made made_other plain plain_other operands⟩

/-- Only the line of a blurred instruction can be that of another one. -/
theorem ListedAlike.eq {located other : Located} (alike : located.ListedAlike other)
    (formed : located.Formed) (formed_other : other.Formed) (sharp : ¬ located.Blurred) :
    located = other := by
  obtain ⟨form, known, made⟩ := formed
  obtain ⟨form', known', made_other⟩ := formed_other
  rw [← alike.opcode, known, Option.some.injEq] at known'
  rw [← known'] at made_other
  have insns : located.insn = other.insn := by
    refine alike.insn.eq made made_other ?_ ?_
    · rintro rfl
      exact sharp (.inl (eq_wideOpcode known))
    · rintro kind rfl slot used
      by_contra low
      exact sharp (.inr ⟨mem_slotOpcodes known, slot, used, Nat.le_of_not_lt low⟩)
  cases located
  cases other
  simp only [mk.injEq]
  exact ⟨alike.offset, alike.opcode, insns⟩

end Code.Located

end ResourceClasses.ClassFile
