import ResourceClasses.ClassFile.ConstantPool

/-!
Filling a constant pool: an index that was given out keeps leading to its constant, whatever is
added later, and computations over a growing pool are put together from their parts.
-/

set_option autoImplicit false

namespace ResourceClasses.ClassFile

/-- The number of bytes of the text that a constant holds itself. -/
def Constant.textLength : Constant → Nat
  | utf8 text => (Text.ModifiedUtf8.encode text).length
  | _ => 0

namespace ConstantPool

/-- Whether nothing stands at index zero, and each constant is found at its first index. -/
structure Sound (pool : ConstantPool) : Prop where
  count_pos : 0 < pool.count
  get?_zero : pool.get? 0 = none
  get?_of_indices : ∀ constant index, pool.indices[constant]? = some index →
    pool.get? index = some constant

/-- The pools that a pool grows to: new constants are added while nothing refuses them. -/
inductive Grown (pool : ConstantPool) : ConstantPool → Prop
  | refl : Grown pool pool
  | append {later : ConstantPool} {constant : Constant} (grown : Grown pool later)
      (fresh : constant ∉ later.indices) (accepted : later.refusal? constant = none) :
      Grown pool (later.append constant)

/-- The pools that a writer gets to from the empty pool. -/
def Filled (pool : ConstantPool) : Prop :=
  Grown .empty pool

/-- Whether a later pool has all constants of an earlier one where they were. -/
def Within (earlier later : ConstantPool) : Prop :=
  ∀ index constant, earlier.get? index = some constant → later.get? index = some constant

theorem Within.refl (pool : ConstantPool) : pool.Within pool := by
  intro index constant found
  exact found

theorem Within.trans {first second third : ConstantPool} (earlier : first.Within second)
    (later : second.Within third) : first.Within third := by
  intro index constant found
  exact later index constant (earlier index constant found)

variable {pool : ConstantPool}

theorem mem_indices_iff {constant : Constant} :
    constant ∈ pool.indices ↔ ∃ index, pool.indices[constant]? = some index := by
  rw [Std.HashMap.mem_iff_isSome_getElem?, Option.isSome_iff_exists]

theorem refusal?_eq (pool : ConstantPool) (constant : Constant) :
    pool.refusal? constant =
      if constant.textLength > maxCount then some (.utf8TooLong constant.textLength)
      else if pool.count + constant.width > maxCount then some .constantPoolOverflow
      else none := by
  cases constant <;> rfl

/-- A constant that is not refused has a text of at most as many bytes as can be counted, and there
are slots for it. -/
theorem of_accepted {constant : Constant} (accepted : pool.refusal? constant = none) :
    constant.textLength ≤ maxCount ∧ pool.count + constant.width ≤ maxCount := by
  rw [refusal?_eq] at accepted
  split at accepted
  · contradiction
  · split at accepted
    · contradiction
    · exact ⟨by omega, by omega⟩

theorem count_lt_of_accepted {constant : Constant} (accepted : pool.refusal? constant = none) :
    pool.count < 0x10000 := by
  have room : pool.count + constant.width ≤ 65535 := (of_accepted accepted).2
  exact Nat.lt_succ_of_le (Nat.le_trans (Nat.le_add_right _ _) room)

theorem lt_count_of_get? {index : UInt16} {constant : Constant}
    (found : pool.get? index = some constant) : index.toNat < pool.count := by
  rw [get?, Option.join_eq_some_iff] at found
  exact (Array.getElem?_eq_some_iff.mp found).1

theorem within_append (pool : ConstantPool) (constant : Constant) :
    pool.Within (pool.append constant) := by
  intro index other found
  rw [get?_append_of_lt pool constant index (lt_count_of_get? found)]
  exact found

theorem get?_append_count {constant : Constant} (small : pool.count < 0x10000) :
    (pool.append constant).get? (UInt16.ofNat pool.count) = some constant := by
  obtain ⟨slots, indices⟩ := pool
  have place : (UInt16.ofNat slots.size).toNat = slots.size := by
    have below : slots.size < 0x10000 := small
    rw [UInt16.toNat_ofNat', Nat.mod_eq_of_lt below]
  cases wide : constant.isWide with
  | true =>
    simp only [append, get?, count, place, wide, if_true, Array.getElem?_push, Array.size_push]
    rw [if_neg (by omega)]
    rfl
  | false =>
    simp only [append, get?, count, place, wide, Bool.false_eq_true, if_false,
      Array.getElem?_push, if_true]
    rfl

/-- What an added constant brings into a pool is itself, at the end. -/
private theorem get?_append_new {constant other : Constant} {index : UInt16}
    (new : pool.count ≤ index.toNat) (found : (pool.append constant).get? index = some other) :
    other = constant ∧ UInt16.ofNat pool.count = index := by
  obtain ⟨slots, indices⟩ := pool
  have new : slots.size ≤ index.toNat := new
  have place : index.toNat = slots.size ∧ other = constant := by
    by_cases wide : constant.isWide <;>
      simp only [append, get?, wide, if_true, Array.getElem?_push, Array.size_push,
        Option.join_eq_some_iff] at found <;> grind
  refine ⟨place.2, ?_⟩
  rw [count, ← place.1, UInt16.ofNat_toNat]

theorem get?_append_cases {constant other : Constant} {index : UInt16}
    (found : (pool.append constant).get? index = some other) :
    pool.get? index = some other ∨ other = constant := by
  by_cases old : index.toNat < pool.count
  · rw [get?_append_of_lt pool constant index old] at found
    exact .inl found
  · exact .inr (get?_append_new (Nat.le_of_not_lt old) found).1

theorem indices_append (constant other : Constant) :
    (pool.append constant).indices[other]? =
      if constant = other ∧ constant ∉ pool.indices then some (UInt16.ofNat pool.count)
      else pool.indices[other]? := by
  obtain ⟨slots, indices⟩ := pool
  simp only [append, count, Std.HashMap.getElem?_insertIfNew, beq_iff_eq]

theorem sound_empty : ConstantPool.empty.Sound where
  count_pos := by decide
  get?_zero := rfl
  get?_of_indices := by
    intro constant index found
    have missing : ConstantPool.empty.indices[constant]? = none := Std.HashMap.getElem?_empty
    rw [missing] at found
    contradiction

theorem Sound.append_of_lt (sound : pool.Sound) (small : pool.count < 0x10000)
    (constant : Constant) : (pool.append constant).Sound where
  count_pos := by
    rw [count_append]
    exact Nat.add_pos_left sound.count_pos _
  get?_zero := by
    rw [get?_append_of_lt _ _ 0 sound.count_pos]
    exact sound.get?_zero
  get?_of_indices := by
    intro other index found
    rw [indices_append] at found
    split at found
    · rename_i fresh
      rw [Option.some.injEq] at found
      rw [← found, ← fresh.1]
      exact get?_append_count small
    · exact within_append pool constant index other (sound.get?_of_indices other index found)

theorem Sound.append (sound : pool.Sound) {constant : Constant}
    (accepted : pool.refusal? constant = none) : (pool.append constant).Sound :=
  sound.append_of_lt (count_lt_of_accepted accepted) constant

namespace Grown

variable {earlier later : ConstantPool}

theorem trans {last : ConstantPool} (first : earlier.Grown later) (second : later.Grown last) :
    earlier.Grown last := by
  induction second with
  | refl => exact first
  | append _ fresh accepted ih => exact ih.append fresh accepted

theorem within (grown : earlier.Grown later) : earlier.Within later := by
  induction grown with
  | refl => exact Within.refl earlier
  | append _ _ _ ih => exact ih.trans (within_append _ _)

theorem sound (grown : earlier.Grown later) (sound : earlier.Sound) : later.Sound := by
  induction grown with
  | refl => exact sound
  | append _ _ accepted ih => exact ih.append accepted

end Grown

theorem Filled.sound (filled : pool.Filled) : pool.Sound :=
  Grown.sound filled sound_empty

theorem Filled.count_le (filled : pool.Filled) : pool.count ≤ maxCount := by
  cases filled with
  | refl => decide
  | append _ _ accepted =>
    rw [count_append]
    exact (of_accepted accepted).2

/-- The constants of a filled pool are those that it finds, and each stands at its index only. -/
theorem Filled.indices_of_get? (filled : pool.Filled) {index : UInt16} {constant : Constant}
    (found : pool.get? index = some constant) : pool.indices[constant]? = some index := by
  induction filled with
  | refl =>
    have inside : index.toNat < 1 := lt_count_of_get? found
    have zero : index = 0 := UInt16.toNat_inj.mp (Nat.lt_one_iff.mp inside)
    rw [zero] at found
    contradiction
  | @append earlier added grown fresh accepted ih =>
    rw [indices_append]
    by_cases old : index.toNat < earlier.count
    · rw [get?_append_of_lt _ _ _ old] at found
      have known := ih found
      have other : added ≠ constant := by
        rintro rfl
        exact fresh (mem_indices_iff.mpr ⟨_, known⟩)
      rw [if_neg fun both => other both.1, known]
    · have new := get?_append_new (Nat.le_of_not_lt old) found
      rw [if_pos ⟨new.1.symm, fresh⟩, new.2]

def slotsOf (constant : Constant) : List (Option Constant) :=
  if constant.isWide then [some constant, none] else [some constant]

/-- A filled pool comes from adding distinct constants to the empty pool. -/
theorem Filled.exists_constants (filled : pool.Filled) :
    ∃ constants : List Constant, pool = constants.foldl ConstantPool.append .empty ∧
      pool.slots.toList = none :: constants.flatMap slotsOf ∧
      constants.Nodup ∧ (∀ constant, constant ∈ constants ↔ constant ∈ pool.indices) ∧
      ∀ constant ∈ constants, constant.textLength ≤ maxCount := by
  induction filled with
  | refl => exact ⟨[], rfl, rfl, .nil, by simp [empty], by simp⟩
  | @append earlier added grown fresh accepted ih =>
    obtain ⟨constants, folded, slots, distinct, inside, short⟩ := ih
    refine ⟨constants ++ [added], ?_, ?_, ?_, ?_, ?_⟩
    · rw [List.foldl_append, ← folded]
      rfl
    · obtain ⟨earlier_slots, indices⟩ := earlier
      simp only at slots
      simp only [ConstantPool.append, List.flatMap_append, List.flatMap_singleton, slotsOf]
      split <;> simp [slots]
    · have absent : added ∉ constants := fun member => fresh ((inside added).mp member)
      exact List.nodup_append.mpr ⟨distinct, by simp, by grind⟩
    · intro constant
      rw [List.mem_append, List.mem_singleton, inside]
      obtain ⟨earlier_slots, indices⟩ := earlier
      simp only [ConstantPool.append, Std.HashMap.mem_insertIfNew, beq_iff_eq]
      constructor
      · exact fun either => either.symm.imp_left Eq.symm
      · exact fun either => either.symm.imp_right Eq.symm
    · intro constant member
      rcases List.mem_append.mp member with old | new
      · exact short constant old
      · rw [List.mem_singleton.mp new]
        exact (of_accepted accepted).1

/-- A constant is interned when it is known, or when it is added because nothing refuses it. -/
theorem intern_ok_cases {constant : Constant} {index : UInt16} {later : ConstantPool}
    (done : intern constant pool = .ok index later) :
    (pool.indices[constant]? = some index ∧ later = pool) ∨
      (constant ∉ pool.indices ∧ pool.refusal? constant = none ∧
        index = UInt16.ofNat pool.count ∧ later = pool.append constant) := by
  unfold intern at done
  split at done
  · rename_i known
    cases done
    exact .inl ⟨known, rfl⟩
  · rename_i missing
    split at done
    · contradiction
    · rename_i accepted
      cases done
      exact .inr ⟨by simp [mem_indices_iff, missing], accepted, rfl, rfl⟩

/-- Only a constant that the pool lacks is refused, and the pool is left alone. -/
theorem refused_of_intern_error {constant : Constant} {error : FormatError}
    {later : ConstantPool} (failed : intern constant pool = .error error later) :
    constant ∉ pool.indices ∧ pool.refusal? constant = some error ∧ later = pool := by
  unfold intern at failed
  split at failed
  · contradiction
  · rename_i missing
    split at failed
    · rename_i refused
      cases failed
      exact ⟨by simp [mem_indices_iff, missing], refused, rfl⟩
    · contradiction

/-- An interned constant stands at the index that it is given, and all others stay. -/
theorem intern_spec {constant : Constant} {index : UInt16} {later : ConstantPool}
    (sound : pool.Sound) (done : intern constant pool = .ok index later) :
    pool.Grown later ∧ later.get? index = some constant := by
  obtain ⟨known, rfl⟩ | ⟨fresh, accepted, rfl, rfl⟩ := intern_ok_cases done
  · exact ⟨.refl, sound.get?_of_indices constant index known⟩
  · exact ⟨.append .refl fresh accepted, get?_append_count (count_lt_of_accepted accepted)⟩

end ConstantPool

namespace Pooled

open ConstantPool

variable {α β : Type}

/-- Where two computations, one after the other, end with a value, the first one does, too. -/
theorem exists_of_bind_ok {action : Pooled α} {next : α → Pooled β} {pool later : ConstantPool}
    {outcome : β} (done : (action >>= next) pool = .ok outcome later) :
    ∃ value middle, action pool = .ok value middle ∧ next value middle = .ok outcome later := by
  change EStateM.bind action next pool = .ok outcome later at done
  unfold EStateM.bind at done
  split at done
  · rename_i value middle found
    exact ⟨value, middle, found, done⟩
  · contradiction

/-- Whether the results of a computation have a property that holds in its last pool and in all
pools that this one grows to. -/
def Yields (action : Pooled α) (good : ConstantPool → α → Prop) : Prop :=
  ∀ (pool : ConstantPool) (value : α) (later : ConstantPool), pool.Sound →
    action pool = .ok value later →
      pool.Grown later ∧ ∀ final, later.Within final → good final value

namespace Yields

variable {action : Pooled α} {good other : ConstantPool → α → Prop}

theorem pure {value : α} (holds : ∀ final, good final value) :
    Yields (Pure.pure value) good := by
  intro pool result later sound done
  change EStateM.Result.ok value pool = .ok result later at done
  simp only [EStateM.Result.ok.injEq] at done
  obtain ⟨rfl, rfl⟩ := done
  exact ⟨.refl, fun final _ => holds final⟩

theorem ofExcept (result : Except FormatError α) :
    Yields (Pooled.ofExcept result) fun _ value => result = .ok value := by
  intro pool value later sound done
  unfold Pooled.ofExcept at done
  split at done
  · simp only [EStateM.Result.ok.injEq] at done
    obtain ⟨rfl, rfl⟩ := done
    exact ⟨.refl, fun final _ => rfl⟩
  · contradiction

theorem throw (error : FormatError) : Yields (MonadExcept.throw error : Pooled α) good := by
  intro pool value later sound done
  contradiction

/-- What the first part yields still holds where the second part ends. -/
theorem bind {next : α → Pooled β} {result : ConstantPool → β → Prop} (first : Yields action good)
    (second : ∀ value, Yields (next value) fun final outcome =>
      good final value → result final outcome) :
    Yields (action >>= next) result := by
  intro pool outcome later sound done
  obtain ⟨value, middle, found, rest⟩ := exists_of_bind_ok done
  obtain ⟨grown, yielded⟩ := first pool value middle sound found
  obtain ⟨grown_on, outcome_good⟩ := second value middle outcome later (grown.sound sound) rest
  refine ⟨grown.trans grown_on, ?_⟩
  intro final last
  exact outcome_good final last (yielded final (grown_on.within.trans last))

theorem mono (yields : Yields action good)
    (weaker : ∀ final value, good final value → other final value) : Yields action other := by
  intro pool value later sound done
  obtain ⟨grown, yielded⟩ := yields pool value later sound done
  exact ⟨grown, fun final last => weaker final value (yielded final last)⟩

end Yields

end Pooled

end ResourceClasses.ClassFile
