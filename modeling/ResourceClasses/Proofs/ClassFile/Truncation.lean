import ResourceClasses.Proofs.ClassFile.Reads
import ResourceClasses.Proofs.ClassFile.Stocked

/-!
Truncated class files: a reader takes the same bytes off all data that starts with them, and where
the data ends within them it says so. Hence no class file is the front of another one.
-/

set_option autoImplicit false

namespace ResourceClasses.ClassFile

variable {α β : Type}

/-- Whether a reader takes exactly the given bytes for a value, and runs out of data that has only
a part of their front. -/
structure Needs (reader : Reader α) (bytes : List UInt8) (value : α) : Prop where
  reads : Reads reader bytes value
  ends : ∀ size front, front <+: bytes → front ≠ bytes →
    reader size front = .error (.unexpectedEof size)

namespace Needs

variable {reader : Reader α} {next : α → Reader β} {first second : List UInt8} {value : α}
  {result : β}

theorem nil (reads : Reads reader [] value) : Needs reader [] value where
  reads := reads
  ends := by
    intro size front within short
    exact absurd (List.prefix_nil.mp within) short

/-- Data that ends within two parts ends within the first one, or has all of it and ends within the
second one. -/
theorem bind (head : Needs reader first value) (tail : Needs (next value) second result) :
    Needs (reader >>= next) (first ++ second) result where
  reads := head.reads.bind tail.reads
  ends := by
    intro size front within short
    have stops : reader size front = .error (.unexpectedEof size) →
        (reader >>= next) size front = .error (.unexpectedEof size) := by
      intro ended
      simp only [Bind.bind, ended]
    rcases List.prefix_or_prefix_of_prefix within (List.prefix_append first second) with
      early | ⟨later, rfl⟩
    · by_cases whole : front = first
      · subst whole
        have none_left : [] ≠ second := by
          rintro rfl
          exact short (List.append_nil front).symm
        have first_read := head.reads size []
        rw [List.append_nil] at first_read
        simp only [Bind.bind, first_read]
        exact tail.ends size [] List.nil_prefix none_left
      · exact stops (head.ends size front early whole)
    · simp only [Bind.bind, head.reads size later]
      refine tail.ends size later ((List.prefix_append_right_inj first).mp within) ?_
      rintro rfl
      exact short rfl

end Needs

namespace Reader

/-- Whether a reader needs all of the bytes that it takes off any data. -/
def Exact (reader : Reader α) : Prop :=
  ∀ size bytes value rest, reader size bytes = .ok (value, rest) →
    ∃ taken, bytes = taken ++ rest ∧ Needs reader taken value

namespace Exact

variable {reader : Reader α} {next : α → Reader β}

theorem pure (value : α) : Exact (Pure.pure value) := by
  intro size bytes result rest done
  cases done
  exact ⟨[], rfl, .nil (.pure value)⟩

theorem ofExcept (result : Except FormatError α) : Exact (Reader.ofExcept result) := by
  intro size bytes value rest done
  cases result with
  | error e => contradiction
  | ok found =>
    cases done
    exact ⟨[], rfl, .nil (.ofExcept rfl)⟩

theorem bind (first : Exact reader) (second : ∀ value, Exact (next value)) :
    Exact (reader >>= next) := by
  intro size bytes result last done
  obtain ⟨value, rest, read, read_on⟩ := bind_ok_iff.mp done
  obtain ⟨taken, rfl, needs⟩ := first _ _ _ _ read
  obtain ⟨later, rfl, needs_later⟩ := second value _ _ _ _ read_on
  exact ⟨taken ++ later, (List.append_assoc _ _ _).symm, needs.bind needs_later⟩

theorem map (exact : Exact reader) (f : α → β) : Exact (f <$> reader) :=
  exact.bind fun value => pure (f value)

theorem take (n : Nat) : Exact (Reader.take n) := by
  intro size bytes value rest done
  unfold Reader.take at done
  rw [splitExactly_eq] at done
  by_cases enough : n ≤ bytes.length
  · rw [if_pos enough] at done
    cases done
    have length : (bytes.take n).length = n := by
      rw [List.length_take, Nat.min_eq_left enough]
    refine ⟨bytes.take n, (List.take_append_drop n bytes).symm, Reads.take_of_length length, ?_⟩
    intro size front within short
    have shorter : front.length < n := by
      have le := within.length_le
      have ne : front.length ≠ (bytes.take n).length := mt within.eq_of_length short
      omega
    rw [Reader.take, splitExactly_eq, if_neg (Nat.not_le_of_lt shorter)]
  · rw [if_neg enough] at done
    contradiction

theorem number (width : Nat) : Exact (Reader.number width) :=
  (take width).bind fun _ => pure _

theorem byte : Exact Reader.byte :=
  (number 1).bind fun _ => pure _

theorem twoBytes : Exact Reader.twoBytes :=
  (number 2).bind fun _ => pure _

theorem fourBytes : Exact Reader.fourBytes :=
  (number 4).bind fun _ => pure _

theorem eightBytes : Exact Reader.eightBytes :=
  (number 4).bind fun _ => (number 4).bind fun _ => pure _

private theorem repeatedAfter (exact : Exact reader) (n : Nat) (found : List α) :
    Exact (Reader.repeatedAfter reader n found) := by
  induction n generalizing found with
  | zero => exact pure found.reverse
  | succ n ih => exact exact.bind fun value => ih (value :: found)

theorem counted (exact : Exact reader) : Exact (Reader.counted reader) :=
  (number 2).bind fun count => repeatedAfter exact count []

end Exact

end Reader

open Reader (Exact)

section

variable (pool : ConstantPool)

private theorem exact_readUtf8 : Exact (readUtf8 pool) :=
  Exact.twoBytes.bind fun _ => .ofExcept _

private theorem exact_readClass : Exact (readClass pool) :=
  Exact.twoBytes.bind fun _ => .ofExcept _

private theorem exact_readOptional (resolve : UInt16 → Except FormatError String) :
    Exact (readOptional resolve) := by
  refine Exact.twoBytes.bind fun index => ?_
  split
  · exact .pure none
  · exact (Exact.ofExcept _).map some

private theorem exact_readConstant (index : Nat) : Exact (readConstant index) := by
  refine Exact.byte.bind fun tag => ?_
  split
  · refine (Exact.number 2).bind fun length => (Exact.take length).bind fun bytes => ?_
    split
    · exact .pure _
    · exact .ofExcept _
  · exact Exact.fourBytes.bind fun _ => .pure _
  · exact Exact.fourBytes.bind fun _ => .pure _
  · exact Exact.eightBytes.bind fun _ => .pure _
  · exact Exact.eightBytes.bind fun _ => .pure _
  · exact Exact.twoBytes.bind fun _ => .pure _
  · exact Exact.twoBytes.bind fun _ => .pure _
  · exact Exact.twoBytes.bind fun _ => Exact.twoBytes.bind fun _ => .pure _
  · exact Exact.twoBytes.bind fun _ => Exact.twoBytes.bind fun _ => .pure _
  · exact Exact.twoBytes.bind fun _ => Exact.twoBytes.bind fun _ => .pure _
  · exact Exact.twoBytes.bind fun _ => Exact.twoBytes.bind fun _ => .pure _
  · exact .ofExcept _

private theorem exact_fillPool (n : Nat) : Exact (fillPool n pool) := by
  induction n, pool using fillPool.induct with
  | case1 pool => exact .pure pool
  | case2 pool => exact (exact_readConstant pool.count).bind fun _ => .pure _
  | case3 n pool wide_ih narrow_ih =>
    refine (exact_readConstant pool.count).bind fun constant => ?_
    split
    · exact wide_ih constant
    · exact narrow_ih constant

private theorem exact_readPool : Exact readPool :=
  (Exact.number 2).bind fun count => exact_fillPool .empty (count - 1)

/-- The content of an attribute is taken as a whole before it is read. -/
private theorem exact_readAttribute : Exact (readAttribute pool) :=
  (exact_readUtf8 pool).bind fun _ => (Exact.number 4).bind fun length =>
    (Exact.take length).bind fun _ => .ofExcept _

private theorem exact_readMember : Exact (readMember pool) :=
  Exact.twoBytes.bind fun _ => (exact_readUtf8 pool).bind fun _ =>
    (exact_readUtf8 pool).bind fun _ => (exact_readAttribute pool).counted.bind fun _ => .pure _

end

theorem exact_readClassFile : Exact readClassFile := by
  refine Exact.fourBytes.bind fun found => ?_
  split
  · exact .ofExcept _
  · refine Exact.twoBytes.bind fun minorVersion => Exact.twoBytes.bind fun majorVersion => ?_
    refine exact_readPool.bind fun pool => Exact.twoBytes.bind fun access => ?_
    refine (exact_readClass pool).bind fun thisClass => ?_
    refine (exact_readOptional pool.classAt).bind fun superClass => ?_
    refine (exact_readClass pool).counted.bind fun interfaces => ?_
    refine (exact_readMember pool).counted.bind fun fields => ?_
    refine (exact_readMember pool).counted.bind fun methods => ?_
    exact (exact_readAttribute pool).counted.bind fun attributes => .pure _

/-- The bytes of a class file are needed to the last of them. -/
theorem needs_of_parse {bytes : List UInt8} {file : ClassFile} (parsed : parse bytes = .ok file) :
    Needs readClassFile bytes file := by
  unfold parse at parsed
  split at parsed
  · contradiction
  · rename_i found read
    cases parsed
    obtain ⟨taken, split, needs⟩ := exact_readClassFile _ _ _ _ read
    rw [List.append_nil] at split
    rw [split]
    exact needs
  · contradiction

/-- Data that ends within a class file is found to end there, and data that goes on behind one is
found to go on. -/
theorem parse_truncated_or_trailing {bytes : List UInt8} {file : ClassFile}
    (parsed : parse bytes = .ok file) :
    (∀ n < bytes.length, parse (bytes.take n) = .error (.unexpectedEof n)) ∧
      ∀ more ≠ [], parse (bytes ++ more) = .error (.trailingBytes more.length) := by
  have needs := needs_of_parse parsed
  constructor
  · intro n inside
    have length : (bytes.take n).length = n := by
      rw [List.length_take, Nat.min_eq_left (Nat.le_of_lt inside)]
    have short : bytes.take n ≠ bytes := by
      intro same
      rw [same] at length
      omega
    have ended := needs.ends n _ (List.take_prefix n bytes) short
    rw [parse, Reader.run, length, ended]
  · intro more some_more
    obtain ⟨byte, rest, rfl⟩ := List.exists_cons_of_ne_nil some_more
    rw [parse, Reader.run, needs.reads]

/-- The file of a class `A` with a long constant and a source file. -/
def namedA : List UInt8 :=
  [0xca, 0xfe, 0xba, 0xbe, 0, 0, 0, 51, 0, 6, 1, 0, 1, 65, 7, 0, 1, 5, 0, 0, 0, 0, 0, 0, 0, 9, 1, 0,
    10, 83, 111, 117, 114, 99, 101, 70, 105, 108, 101, 0, 1, 0, 2, 0, 0, 0, 0, 0, 0, 0, 0, 0, 1, 0,
    5, 0, 0, 0, 2, 0, 1]

theorem parse_truncated_or_trailing_namedA :
    (∃ file, parse namedA = .ok file) ∧
      (∀ n < 61, parse (namedA.take n) = .error (.unexpectedEof n)) ∧
      parse (namedA ++ [0, 1]) = .error (.trailingBytes 2) := by
  have parsed : ∃ file, parse namedA = .ok file := ⟨_, rfl⟩
  obtain ⟨file, read⟩ := parsed
  obtain ⟨truncated, trailing⟩ := parse_truncated_or_trailing read
  exact ⟨⟨file, read⟩, truncated, trailing [0, 1] (List.cons_ne_nil _ _)⟩

end ResourceClasses.ClassFile
