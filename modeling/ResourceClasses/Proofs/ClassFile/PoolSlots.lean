import ResourceClasses.Proofs.ClassFile.Parts
import ResourceClasses.Proofs.ClassFile.Pool
import ResourceClasses.Total

/-!
Slots of a pool: behind the first one, each holds a constant or belongs to the long or double that
starts just before it. A pool that is read has as many slots as its file counts, and one more where
a long or a double starts in the last of them.

Main statement: `parse_pool_slots`.
-/

set_option autoImplicit false

namespace ResourceClasses.ClassFile

open Reader

namespace ConstantPool

variable {pool : ConstantPool}

/-- Whether a long or a double starts in a slot. -/
def WideAt (pool : ConstantPool) (slot : Nat) : Prop :=
  ∃ wide : Constant, wide.isWide ∧ pool.slots[slot]? = some (some wide)

/-- Whether each slot behind the first one is taken, and two of them by each long and double. -/
structure Occupied (pool : ConstantPool) : Prop where
  holds : ∀ slot, 0 < slot → slot < pool.count →
    (∃ constant, pool.slots[slot]? = some (some constant)) ∨
      pool.slots[slot]? = some none ∧ pool.WideAt (slot - 1)
  upper : ∀ slot, pool.WideAt slot → pool.slots[slot + 1]? = some none

theorem lt_count_of_slot {slot : Nat} {held : Option Constant}
    (found : pool.slots[slot]? = some held) : slot < pool.count :=
  (Array.getElem?_eq_some_iff.mp found).1

private theorem slots_append (pool : ConstantPool) (constant : Constant) :
    (pool.append constant).slots =
      if constant.isWide then (pool.slots.push (some constant)).push none
      else pool.slots.push (some constant) :=
  rfl

private theorem slots_append_of_lt {slot : Nat} (old : slot < pool.count) (constant : Constant) :
    (pool.append constant).slots[slot]? = pool.slots[slot]? := by
  have before : slot < pool.slots.size := old
  rw [slots_append]
  split
  · rw [Array.getElem?_push, if_neg (by rw [Array.size_push]; omega), Array.getElem?_push,
      if_neg (by omega)]
  · rw [Array.getElem?_push, if_neg (by omega)]

private theorem slots_append_count (pool : ConstantPool) (constant : Constant) :
    (pool.append constant).slots[pool.count]? = some (some constant) := by
  rw [slots_append, count]
  split
  · rw [Array.getElem?_push, if_neg (by rw [Array.size_push]; omega), Array.getElem?_push,
      if_pos rfl]
  · rw [Array.getElem?_push, if_pos rfl]

private theorem slots_append_upper {constant : Constant} (wide : constant.isWide) :
    (pool.append constant).slots[pool.count + 1]? = some none := by
  rw [slots_append, if_pos wide, Array.getElem?_push, if_pos]
  rw [Array.size_push, count]

theorem wideAt_append_count {constant : Constant} (wide : constant.isWide) :
    (pool.append constant).WideAt pool.count :=
  ⟨constant, wide, slots_append_count pool constant⟩

theorem WideAt.append {slot : Nat} (wide : pool.WideAt slot) (constant : Constant) :
    (pool.append constant).WideAt slot := by
  obtain ⟨found, is_wide, there⟩ := wide
  exact ⟨found, is_wide, (slots_append_of_lt (lt_count_of_slot there) constant).trans there⟩

/-- Behind an added constant stand the slots of before, the constant, and its upper half. -/
private theorem slots_append_cases {slot : Nat} {constant : Constant} {held : Option Constant}
    (there : (pool.append constant).slots[slot]? = some held) :
    pool.slots[slot]? = some held ∨ slot = pool.count ∧ held = some constant ∨
      slot = pool.count + 1 ∧ constant.isWide ∧ held = none := by
  by_cases old : slot < pool.count
  · rw [slots_append_of_lt old] at there
    exact .inl there
  · by_cases first : slot = pool.count
    · rw [first, slots_append_count] at there
      exact .inr (.inl ⟨first, (Option.some.inj there).symm⟩)
    · have inside := lt_count_of_slot there
      rw [count_append, Constant.width] at inside
      split at inside
      · rename_i wide
        have second : slot = pool.count + 1 := by omega
        rw [second, slots_append_upper wide] at there
        exact .inr (.inr ⟨second, wide, (Option.some.inj there).symm⟩)
      · omega

theorem occupied_empty : ConstantPool.empty.Occupied where
  holds := by
    intro slot behind inside
    have one : slot < 1 := inside
    omega
  upper := by
    rintro slot ⟨wide, -, there⟩
    have zero : slot = 0 := Nat.lt_one_iff.mp (lt_count_of_slot there)
    rw [zero] at there
    cases there

theorem Occupied.append (occupied : pool.Occupied) (constant : Constant) :
    (pool.append constant).Occupied where
  holds := by
    intro slot behind inside
    obtain ⟨held, there⟩ : ∃ held, (pool.append constant).slots[slot]? = some held :=
      ⟨_, Array.getElem?_eq_getElem inside⟩
    rcases slots_append_cases there with old | ⟨-, rfl⟩ | ⟨rfl, wide, rfl⟩
    · have before := lt_count_of_slot old
      rw [slots_append_of_lt before]
      exact (occupied.holds slot behind before).imp_right
        fun half => ⟨half.1, half.2.append constant⟩
    · exact .inl ⟨constant, there⟩
    · exact .inr ⟨there, wideAt_append_count wide⟩
  upper := by
    rintro slot ⟨found, is_wide, there⟩
    rcases slots_append_cases there with old | ⟨rfl, same⟩ | ⟨-, -, none_held⟩
    · have half := occupied.upper slot ⟨found, is_wide, old⟩
      rw [slots_append_of_lt (lt_count_of_slot half)]
      exact half
    · exact slots_append_upper (Option.some.inj same ▸ is_wide)
    · contradiction

theorem Occupied.foldl (occupied : pool.Occupied) (constants : List Constant) :
    (constants.foldl ConstantPool.append pool).Occupied := by
  induction constants generalizing pool with
  | nil => exact occupied
  | cons constant later ih => exact ih (occupied.append constant)

end ConstantPool

/-- Whether constants take a number of slots; a long or a double at the end may take one more. -/
inductive Takes : Nat → List Constant → Prop
  | nothing : Takes 0 []
  | exceeds {wide : Constant} (is_wide : wide.isWide) : Takes 1 [wide]
  | cons {n : Nat} {constant : Constant} {later : List Constant} (takes : Takes n later) :
      Takes (n + constant.width) (constant :: later)

/-- A pool is filled with the constants that are read for its slots. -/
theorem exists_constants_of_fillPool {n size : Nat} {bytes rest : List UInt8}
    {pool later : ConstantPool} (done : fillPool n pool size bytes = .ok (later, rest)) :
    ∃ constants, Takes n constants ∧ later = constants.foldl ConstantPool.append pool := by
  induction n, pool using fillPool.induct generalizing bytes with
  | case1 pool =>
    cases done
    exact ⟨[], .nothing, rfl⟩
  | case2 pool =>
    obtain ⟨constant, middle, -, given⟩ := bind_ok_iff.mp done
    cases given
    refine ⟨[constant], ?_, rfl⟩
    by_cases wide : constant.isWide
    · exact .exceeds wide
    · have one : Takes (0 + constant.width) [constant] := .cons .nothing
      rwa [Constant.width, if_neg wide] at one
  | case3 n pool wide_ih narrow_ih =>
    obtain ⟨constant, middle, -, given⟩ := bind_ok_iff.mp done
    split at given
    · rename_i wide
      obtain ⟨constants, takes, same⟩ := wide_ih constant given
      have more : Takes (n + constant.width) (constant :: constants) := .cons takes
      rw [Constant.width, if_pos wide] at more
      exact ⟨constant :: constants, more, same⟩
    · rename_i narrow
      obtain ⟨constants, takes, same⟩ := narrow_ih constant given
      have more : Takes (n + 1 + constant.width) (constant :: constants) := .cons takes
      rw [Constant.width, if_neg narrow] at more
      exact ⟨constant :: constants, more, same⟩

/-- Constants fill their slots, or go past them with a long or a double in the last one. -/
theorem Takes.count_foldl {n : Nat} {constants : List Constant} (takes : Takes n constants)
    (pool : ConstantPool) :
    (constants.foldl ConstantPool.append pool).count = pool.count + n ∨
      (constants.foldl ConstantPool.append pool).count = pool.count + n + 1 ∧
        (constants.foldl ConstantPool.append pool).WideAt (pool.count + n - 1) := by
  induction takes generalizing pool with
  | nothing => exact .inl rfl
  | @exceeds wide is_wide =>
    refine .inr ⟨?_, ConstantPool.wideAt_append_count is_wide⟩
    rw [List.foldl_cons, List.foldl_nil, ConstantPool.count_append, Constant.width, if_pos is_wide]
  | @cons n constant later _ ih =>
    have filled := ih (pool.append constant)
    have slots : (pool.append constant).count + n = pool.count + (n + constant.width) := by
      rw [ConstantPool.count_append]
      omega
    rw [slots] at filled
    exact filled

/-- The count of constants that a class file starts with, behind its magic number and versions. -/
def storedCount (bytes : List UInt8) : Nat :=
  ofBigEndian ((bytes.drop 8).take 2)

namespace Parts

variable {bytes : List UInt8} {file : ClassFile}

/-- A class file counts some constants, since its name is among them. -/
private theorem exists_filled (parts : Parts bytes file) :
    ∃ constants, 0 < storedCount bytes ∧ Takes (storedCount bytes - 1) constants ∧
      file.pool = constants.foldl ConstantPool.append .empty := by
  obtain ⟨rest, read⟩ := parts.pool
  obtain ⟨count, middle, counted, filled⟩ := bind_ok_iff.mp read
  obtain ⟨-, stored, -⟩ := number_ok_iff.mp counted
  obtain ⟨constants, takes, same⟩ := exists_constants_of_fillPool filled
  have count_eq : storedCount bytes = count := stored
  refine ⟨constants, ?_, count_eq ▸ takes, same⟩
  rw [count_eq]
  by_contra none_counted
  have zero : count = 0 := Nat.eq_zero_of_not_pos none_counted
  have empty : file.pool = .empty := by
    rw [zero] at filled
    exact (congrArg Prod.fst (Except.ok.inj filled)).symm
  obtain ⟨index, named⟩ := parts.thisClass
  unfold ConstantPool.classAt at named
  split at named
  · rename_i name found
    rw [empty] at found
    have first : index = 0 :=
      UInt16.toNat_inj.mp (Nat.lt_one_iff.mp (ConstantPool.lt_count_of_get? found))
    rw [first] at found
    cases found
  · contradiction

theorem occupied (parts : Parts bytes file) : file.pool.Occupied := by
  obtain ⟨constants, -, -, same⟩ := parts.exists_filled
  rw [same]
  exact ConstantPool.occupied_empty.foldl constants

theorem count_cases (parts : Parts bytes file) :
    file.pool.count = storedCount bytes ∧ ¬file.pool.WideAt (storedCount bytes - 1) ∨
      file.pool.count = storedCount bytes + 1 ∧ file.pool.WideAt (storedCount bytes - 1) := by
  obtain ⟨constants, some_counted, takes, same⟩ := parts.exists_filled
  have filled := takes.count_foldl .empty
  have start : ConstantPool.empty.count + (storedCount bytes - 1) = storedCount bytes := by
    show 1 + (storedCount bytes - 1) = storedCount bytes
    omega
  rw [← same, start] at filled
  refine filled.imp_left fun counted => ⟨counted, ?_⟩
  intro wide
  have half := ConstantPool.lt_count_of_slot (parts.occupied.upper _ wide)
  omega

end Parts

/-- The pool of a class file that is read has as many slots as the file counts, unless a long or a
double starts in the last one, and then it has one more; and each index inside the pool leads to a
constant, or belongs to the long or double at the index before it. -/
theorem parse_pool_slots {bytes : List UInt8} {file : ClassFile}
    (parsed : parse bytes = .ok file) :
    (file.pool.count = storedCount bytes ↔ ¬file.pool.WideAt (storedCount bytes - 1)) ∧
      (file.pool.WideAt (storedCount bytes - 1) → file.pool.count = storedCount bytes + 1) ∧
      ∀ index : UInt16, 0 < index.toNat → index.toNat < file.pool.count →
        (∃ constant, file.pool.get? index = some constant) ∨
          file.pool.get? index = none ∧ file.pool.WideAt (index.toNat - 1) := by
  have parts := parts_of_parse parsed
  refine ⟨?_, ?_, ?_⟩
  · rcases parts.count_cases with ⟨counted, narrow⟩ | ⟨exceeded, wide⟩
    · exact iff_of_true counted narrow
    · exact iff_of_false (by omega) (not_not_intro wide)
  · intro wide
    rcases parts.count_cases with ⟨-, narrow⟩ | ⟨exceeded, -⟩
    · exact absurd wide narrow
    · exact exceeded
  · intro index behind inside
    unfold ConstantPool.get?
    rcases parts.occupied.holds index.toNat behind inside with ⟨constant, there⟩ | ⟨half, wide⟩
    · rw [there]
      exact .inl ⟨constant, rfl⟩
    · rw [half]
      exact .inr ⟨rfl, wide⟩

/-- The file of a class `A` with a long at index 3 and a text behind it. -/
def longInside : List UInt8 :=
  [0xca, 0xfe, 0xba, 0xbe, 0, 0, 0, 51, 0, 6, 1, 0, 1, 65, 7, 0, 1, 5, 0, 0, 0, 0, 0, 0, 0, 9, 1, 0,
    1, 66, 0, 33, 0, 2, 0, 0, 0, 0, 0, 0, 0, 0, 0, 0]

theorem parse_pool_slots_longInside :
    ∃ file, parse longInside = .ok file ∧ file.pool.count = storedCount longInside ∧
      file.pool.get? 4 = none ∧ file.pool.WideAt 3 := by
  have parsed : ∃ file, parse longInside = .ok file ∧ file.pool.get? 4 = none ∧
      file.pool.slots[5]? = some (some (.utf8 "B")) ∧ file.pool.count = 6 := ⟨_, rfl, rfl, rfl, rfl⟩
  obtain ⟨file, read, upper, text, slots⟩ := parsed
  obtain ⟨counted, -, each⟩ := parse_pool_slots read
  have narrow : ¬file.pool.WideAt (storedCount longInside - 1) := by
    rintro ⟨wide, is_wide, there⟩
    have same : some (some wide) = some (some (Constant.utf8 "B")) := there.symm.trans text
    cases same
    contradiction
  refine ⟨file, read, counted.mpr narrow, ?_⟩
  rcases each 4 (by decide) (by rw [slots]; decide) with ⟨constant, found⟩ | half
  · rw [upper] at found
    contradiction
  · exact half

/-- The file of a class `A` that counts four slots, with a long in the last one. -/
def longLast : List UInt8 :=
  [0xca, 0xfe, 0xba, 0xbe, 0, 0, 0, 51, 0, 4, 1, 0, 1, 65, 7, 0, 1, 5, 0, 0, 0, 0, 0, 0, 0, 9, 0, 33,
    0, 2, 0, 0, 0, 0, 0, 0, 0, 0, 0, 0]

/-- The long takes a slot that the file does not count. -/
theorem not_parse_pool_slots_longLast :
    ∃ file, parse longLast = .ok file ∧ storedCount longLast = 4 ∧ file.pool.count = 5 :=
  ⟨_, rfl, rfl, rfl⟩

end ResourceClasses.ClassFile
