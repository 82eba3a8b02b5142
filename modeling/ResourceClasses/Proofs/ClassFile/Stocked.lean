import ResourceClasses.Proofs.ClassFile.PoolCalls
import ResourceClasses.Proofs.ClassFile.PoolSlots

/-!
Stocked pools: pools that were read with a class, in which constants can stand more than once, and
those that calls fill further. In all of them each constant is found at its first index.
-/

set_option autoImplicit false

namespace ResourceClasses.ClassFile

open Reader

namespace ConstantPool

variable {pool later : ConstantPool}

/-- Whether a sound pool finds all of its constants, and each where it stands first. -/
structure Indexed (pool : ConstantPool) : Prop extends pool.Sound where
  first_le : ∀ index constant, pool.get? index = some constant →
    ∃ first, pool.indices[constant]? = some first ∧ first.toNat ≤ index.toNat

theorem indexed_empty : ConstantPool.empty.Indexed where
  toSound := sound_empty
  first_le := by
    intro index constant found
    have zero : index = 0 := UInt16.toNat_inj.mp (Nat.lt_one_iff.mp (lt_count_of_get? found))
    rw [zero, sound_empty.get?_zero] at found
    contradiction

theorem Indexed.append_of_lt (indexed : pool.Indexed) (small : pool.count < 0x10000)
    (constant : Constant) : (pool.append constant).Indexed where
  toSound := indexed.toSound.append_of_lt small constant
  first_le := by
    intro index other there
    rw [indices_append]
    have place : (UInt16.ofNat pool.count).toNat = pool.count := by
      rw [UInt16.toNat_ofNat', Nat.mod_eq_of_lt small]
    by_cases old : index.toNat < pool.count
    · rw [get?_append_of_lt pool constant index old] at there
      obtain ⟨first, known, le⟩ := indexed.first_le index other there
      refine ⟨first, ?_, le⟩
      rw [if_neg]
      · exact known
      · rintro ⟨rfl, fresh⟩
        exact fresh (mem_indices_iff.mpr ⟨_, known⟩)
    · have behind := Nat.le_of_not_lt old
      split
      · exact ⟨_, rfl, place.symm ▸ behind⟩
      · rename_i known
        rcases get?_append_cases there with held | rfl
        · exact absurd (lt_count_of_get? held) old
        · have member : other ∈ pool.indices := by
            by_contra fresh
            exact known ⟨rfl, fresh⟩
          obtain ⟨first, found⟩ := mem_indices_iff.mp member
          have before := lt_count_of_get? (indexed.get?_of_indices other first found)
          exact ⟨first, found, by omega⟩

theorem Grown.indexed (grown : pool.Grown later) (indexed : pool.Indexed) : later.Indexed := by
  induction grown with
  | refl => exact indexed
  | append _ _ accepted ih => exact ih.append_of_lt (count_lt_of_accepted accepted) _

end ConstantPool

/-- Constants are found at their first index when they fill no more slots than can be counted. -/
theorem Takes.indexed_foldl {n : Nat} {constants : List Constant} (takes : Takes n constants)
    {pool : ConstantPool} (indexed : pool.Indexed) (room : pool.count + n < 0x10000) :
    (constants.foldl ConstantPool.append pool).Indexed := by
  induction takes generalizing pool with
  | nothing => exact indexed
  | exceeds => exact indexed.append_of_lt (by omega) _
  | @cons n constant later _ ih =>
    refine ih (indexed.append_of_lt (by omega) constant) ?_
    rw [ConstantPool.count_append]
    omega

theorem ConstantPool.indexed_readPool {pool : ConstantPool} {size : Nat} {bytes rest : List UInt8}
    (done : readPool size bytes = .ok (pool, rest)) : pool.Indexed := by
  obtain ⟨count, middle, counted, filled⟩ := bind_ok_iff.mp done
  obtain ⟨constants, takes, rfl⟩ := exists_constants_of_fillPool filled
  have small : count < 0x10000 := number_lt counted
  have start : ConstantPool.empty.count = 1 := rfl
  exact takes.indexed_foldl indexed_empty (by omega)

/-- The pool of a class that is read finds each constant at its first index. -/
theorem indexed_of_parse {bytes : List UInt8} {file : ClassFile}
    (parsed : parse bytes = .ok file) : file.pool.Indexed := by
  obtain ⟨rest, filled⟩ := (parts_of_parse parsed).pool
  exact ConstantPool.indexed_readPool filled

/-- The pools that there are: the empty one, those of the classes that are read, and what any calls
on them leave, whether they succeed or fail. -/
inductive Stocked : ConstantPool → Prop
  | empty : Stocked .empty
  | read {bytes : List UInt8} {file : ClassFile} (parsed : parse bytes = .ok file) :
      Stocked file.pool
  | called {pool : ConstantPool} (stocked : Stocked pool) (call : PoolCall) :
      Stocked (call.run.after pool)

theorem Stocked.indexed {pool : ConstantPool} (stocked : Stocked pool) : pool.Indexed := by
  induction stocked with
  | empty => exact ConstantPool.indexed_empty
  | read parsed => exact indexed_of_parse parsed
  | called _ call ih => exact (call.interns_run.grown _).indexed ih

theorem Stocked.sound {pool : ConstantPool} (stocked : Stocked pool) : pool.Sound :=
  stocked.indexed.toSound

end ResourceClasses.ClassFile
