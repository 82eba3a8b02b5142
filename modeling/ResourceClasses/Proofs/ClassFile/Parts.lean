import ResourceClasses.ClassFile.Parse
import ResourceClasses.Proofs.ClassFile.Reads

/-!
Parts of a class file that is read: where its pool stands, and what each attribute is made from.

Main statements:
* `parts_of_parse`: the pool of a class file follows its versions, and it names the class.
* `code_of_attributeOf`: the instructions of a method body are those of its bytes.
-/

set_option autoImplicit false

namespace ResourceClasses.ClassFile

namespace Reader

variable {α β : Type}

/-- Two readers succeed one after the other when the second one does on what the first one
leaves. -/
theorem bind_ok_iff {reader : Reader α} {next : α → Reader β} {size : Nat}
    {bytes last : List UInt8} {result : β} :
    (reader >>= next) size bytes = .ok (result, last) ↔
      ∃ value rest, reader size bytes = .ok (value, rest) ∧
        next value size rest = .ok (result, last) := by
  cases read : reader size bytes with
  | error e =>
    have failed : (reader >>= next) size bytes = .error e := by simp only [bind, read]
    simp [failed]
  | ok found =>
    obtain ⟨value, rest⟩ := found
    have step : (reader >>= next) size bytes = next value size rest := by simp only [bind, read]
    simp [step]

theorem ofExcept_ok_iff {result : Except FormatError α} {size : Nat} {bytes rest : List UInt8}
    {value : α} :
    ofExcept result size bytes = .ok (value, rest) ↔ result = .ok value ∧ bytes = rest := by
  cases result with
  | error e => simp [ofExcept]
  | ok found => simp [ofExcept]

/-- Bytes are taken off the front. -/
theorem take_ok_iff {n size : Nat} {bytes value rest : List UInt8} :
    take n size bytes = .ok (value, rest) ↔
      n ≤ bytes.length ∧ bytes.take n = value ∧ bytes.drop n = rest := by
  rw [take, splitExactly_eq]
  by_cases enough : n ≤ bytes.length
  · simp [enough]
  · simp [enough]

theorem length_of_take {n size : Nat} {bytes value rest : List UInt8}
    (done : take n size bytes = .ok (value, rest)) : value.length = n := by
  obtain ⟨enough, rfl, -⟩ := take_ok_iff.mp done
  exact List.length_take.trans (Nat.min_eq_left enough)

theorem number_ok_iff {width size n : Nat} {bytes rest : List UInt8} :
    number width size bytes = .ok (n, rest) ↔
      width ≤ bytes.length ∧ ofBigEndian (bytes.take width) = n ∧ bytes.drop width = rest := by
  constructor
  · intro done
    obtain ⟨found, behind, taken, given⟩ := bind_ok_iff.mp done
    obtain ⟨enough, rfl, rfl⟩ := take_ok_iff.mp taken
    cases given
    exact ⟨enough, rfl, rfl⟩
  · rintro ⟨enough, rfl, rfl⟩
    exact bind_ok_iff.mpr ⟨_, _, take_ok_iff.mpr ⟨enough, rfl, rfl⟩, rfl⟩

/-- A number needs no more bytes than it is read from. -/
theorem number_lt {width size n : Nat} {bytes rest : List UInt8}
    (done : number width size bytes = .ok (n, rest)) : n < Nat.pow 256 width := by
  obtain ⟨enough, rfl, -⟩ := number_ok_iff.mp done
  have below := ofBigEndian_lt (bytes.take width)
  rwa [List.length_take, Nat.min_eq_left enough] at below

theorem drop_of_twoBytes {size : Nat} {bytes rest : List UInt8} {value : UInt16}
    (done : twoBytes size bytes = .ok (value, rest)) : bytes.drop 2 = rest := by
  obtain ⟨found, behind, read, given⟩ := bind_ok_iff.mp done
  cases given
  exact (number_ok_iff.mp read).2.2

theorem drop_of_fourBytes {size : Nat} {bytes rest : List UInt8} {value : UInt32}
    (done : fourBytes size bytes = .ok (value, rest)) : bytes.drop 4 = rest := by
  obtain ⟨found, behind, read, given⟩ := bind_ok_iff.mp done
  cases given
  exact (number_ok_iff.mp read).2.2

private theorem exists_of_mem_repeatedAfter {reader : Reader α} {n size : Nat} {found values : List α}
    {bytes rest : List UInt8} (done : repeatedAfter reader n found size bytes = .ok (values, rest))
    {value : α} (member : value ∈ values) :
    value ∈ found ∨ ∃ before after, reader size before = .ok (value, after) := by
  induction n generalizing found bytes with
  | zero =>
    cases done
    exact .inl (List.mem_reverse.mp member)
  | succ n ih =>
    unfold repeatedAfter at done
    split at done
    · contradiction
    · rename_i first behind read
      rcases ih done with known | later
      · rcases List.mem_cons.mp known with rfl | old
        · exact .inr ⟨bytes, behind, read⟩
        · exact .inl old
      · exact .inr later

/-- Each value of a list that is read is read somewhere. -/
theorem exists_of_mem_counted {reader : Reader α} {size : Nat} {values : List α}
    {bytes rest : List UInt8} (done : counted reader size bytes = .ok (values, rest)) {value : α}
    (member : value ∈ values) : ∃ before after, reader size before = .ok (value, after) := by
  obtain ⟨count, behind, -, done⟩ := bind_ok_iff.mp done
  rcases exists_of_mem_repeatedAfter done member with never | read
  · contradiction
  · exact read

end Reader

open Reader

section

variable {pool : ConstantPool}

/-- Whether an attribute is what some content is read as, with the constants of a pool. -/
def Attribute.ReadWith (pool : ConstantPool) (part : Attribute) : Prop :=
  ∃ name content, attributeOf pool name content = .ok part

private theorem code_of_readCode {size : Nat} {bytes rest : List UInt8} {body : CodeAttribute}
    (done : readCode pool size bytes = .ok (body, rest)) :
    body.bytes.length < 0x100000000 ∧ Code.instructions pool body.bytes = .ok body.instructions := by
  obtain ⟨maxStack, bytes, -, done⟩ := bind_ok_iff.mp done
  obtain ⟨maxLocals, bytes, -, done⟩ := bind_ok_iff.mp done
  obtain ⟨length, bytes, counted, done⟩ := bind_ok_iff.mp done
  obtain ⟨code, bytes, taken, done⟩ := bind_ok_iff.mp done
  obtain ⟨handlers, bytes, -, done⟩ := bind_ok_iff.mp done
  obtain ⟨skipped, bytes, -, done⟩ := bind_ok_iff.mp done
  obtain ⟨attributes, bytes, -, done⟩ := bind_ok_iff.mp done
  obtain ⟨instructions, bytes, decoded, same⟩ := bind_ok_iff.mp done
  cases same
  refine ⟨?_, (ofExcept_ok_iff.mp decoded).1⟩
  rw [length_of_take taken]
  exact number_lt counted

/-- The code of a method is short enough for its length to be read, and its instructions are those
in its bytes. -/
theorem code_of_attributeOf {name : String} {content : List UInt8} {body : CodeAttribute}
    (read : attributeOf pool name content = .ok (.code body)) :
    body.bytes.length < 0x100000000 ∧ Code.instructions pool body.bytes = .ok body.instructions := by
  unfold attributeOf at read
  split at read
  · cases read
  · rename_i known _
    split at read
    · contradiction
    · rename_i found done
      cases read
      -- Only the layout of code gives code.
      cases known with
      | code =>
        obtain ⟨value, rest, done, same⟩ := bind_ok_iff.mp done
        cases same
        exact code_of_readCode done
      | _ =>
        obtain ⟨value, rest, -, other⟩ := bind_ok_iff.mp done
        cases other
    · contradiction

private theorem readWith_of_readAttribute {size : Nat} {bytes rest : List UInt8}
    {part : Attribute} (done : readAttribute pool size bytes = .ok (part, rest)) :
    part.ReadWith pool := by
  obtain ⟨name, bytes, -, done⟩ := bind_ok_iff.mp done
  obtain ⟨length, bytes, -, done⟩ := bind_ok_iff.mp done
  obtain ⟨content, bytes, -, done⟩ := bind_ok_iff.mp done
  exact ⟨name, content, (ofExcept_ok_iff.mp done).1⟩

private theorem readWith_of_counted {size : Nat} {bytes rest : List UInt8}
    {attributes : List Attribute}
    (done : counted (readAttribute pool) size bytes = .ok (attributes, rest)) :
    ∀ part ∈ attributes, part.ReadWith pool := by
  intro part member
  obtain ⟨before, after, read⟩ := exists_of_mem_counted done member
  exact readWith_of_readAttribute read

private theorem readWith_of_members {size : Nat} {bytes rest : List UInt8} {members : List Member}
    (done : counted (readMember pool) size bytes = .ok (members, rest)) :
    ∀ member ∈ members, ∀ part ∈ member.attributes, part.ReadWith pool := by
  intro member listed
  obtain ⟨bytes, after, done⟩ := exists_of_mem_counted done listed
  obtain ⟨access, bytes, -, done⟩ := bind_ok_iff.mp done
  obtain ⟨name, bytes, -, done⟩ := bind_ok_iff.mp done
  obtain ⟨descriptor, bytes, -, done⟩ := bind_ok_iff.mp done
  obtain ⟨attributes, bytes, read, same⟩ := bind_ok_iff.mp done
  cases same
  exact readWith_of_counted read

end

/-- The attributes of a class file, and those of its fields and methods. -/
def allAttributes (file : ClassFile) : List Attribute :=
  file.attributes ++ (file.fields ++ file.methods).flatMap Member.attributes

/-- What is known of a class file that is read from some bytes: its pool stands behind the magic
number and the versions, and gives its name and all that its attributes refer to. -/
structure Parts (bytes : List UInt8) (file : ClassFile) : Prop where
  pool : ∃ rest, readPool bytes.length (bytes.drop 8) = .ok (file.pool, rest)
  thisClass : ∃ index, file.pool.classAt index = .ok file.thisClass
  attributes : ∀ part ∈ file.allAttributes, part.ReadWith file.pool

private theorem parts_of_readClassFile {bytes last : List UInt8} {file : ClassFile}
    (done : readClassFile bytes.length bytes = .ok (file, last)) : Parts bytes file := by
  obtain ⟨found, behind_magic, magic, done⟩ := bind_ok_iff.mp done
  split at done
  · contradiction
  · obtain ⟨minor, behind_minor, minor_read, done⟩ := bind_ok_iff.mp done
    obtain ⟨major, behind_major, major_read, done⟩ := bind_ok_iff.mp done
    obtain ⟨pool, behind_pool, filled, done⟩ := bind_ok_iff.mp done
    obtain ⟨access, rest, -, done⟩ := bind_ok_iff.mp done
    obtain ⟨thisClass, rest, named, done⟩ := bind_ok_iff.mp done
    obtain ⟨superClass, rest, -, done⟩ := bind_ok_iff.mp done
    obtain ⟨interfaces, rest, -, done⟩ := bind_ok_iff.mp done
    obtain ⟨fields, rest, fields_read, done⟩ := bind_ok_iff.mp done
    obtain ⟨methods, rest, methods_read, done⟩ := bind_ok_iff.mp done
    obtain ⟨attributes, rest, attributes_read, same⟩ := bind_ok_iff.mp done
    cases same
    refine ⟨⟨behind_pool, ?_⟩, ?_, ?_⟩
    · have place : bytes.drop 8 = behind_major := by
        rw [← drop_of_twoBytes major_read, ← drop_of_twoBytes minor_read,
          ← drop_of_fourBytes magic, List.drop_drop, List.drop_drop]
      rw [place]
      exact filled
    · obtain ⟨index, rest, -, resolved⟩ := bind_ok_iff.mp named
      exact ⟨index, (ofExcept_ok_iff.mp resolved).1⟩
    · simp only [allAttributes, List.forall_mem_append, List.forall_mem_flatMap]
      exact ⟨readWith_of_counted attributes_read, readWith_of_members fields_read,
        readWith_of_members methods_read⟩

theorem parts_of_parse {bytes : List UInt8} {file : ClassFile} (parsed : parse bytes = .ok file) :
    Parts bytes file := by
  unfold parse at parsed
  split at parsed
  · contradiction
  · rename_i found read
    cases parsed
    exact parts_of_readClassFile read
  · contradiction

end ResourceClasses.ClassFile
