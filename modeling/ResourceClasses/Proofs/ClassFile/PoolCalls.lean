import ResourceClasses.Proofs.ClassFile.Entry
import ResourceClasses.Proofs.ClassFile.PoolBytes

/-!
Calls on a constant pool: any number of them one after another, each of which may fail. A call only
adds constants, also when it fails, and once it has succeeded it gives the same index again. The
pool that they leave is read back from its bytes.
-/

set_option autoImplicit false

namespace ResourceClasses.ClassFile

namespace ConstantPool

variable {pool earlier later : ConstantPool} {constant : Constant} {index : UInt16}

/-- A constant is found at the same index after others have been added. -/
theorem Grown.indices (grown : earlier.Grown later)
    (known : earlier.indices[constant]? = some index) :
    later.indices[constant]? = some index := by
  induction grown with
  | refl => exact known
  | @append middle added _ fresh _ ih =>
    rw [indices_append, if_neg]
    · exact ih
    · rintro ⟨rfl, -⟩
      exact fresh (mem_indices_iff.mpr ⟨_, ih⟩)

/-- An interned constant is found at the index that it is given. -/
theorem indices_of_intern (done : intern constant pool = .ok index later) :
    later.indices[constant]? = some index := by
  obtain ⟨known, rfl⟩ | ⟨fresh, -, rfl, rfl⟩ := intern_ok_cases done
  · exact known
  · rw [indices_append, if_pos ⟨rfl, fresh⟩]

/-- A constant that is found is not added again. -/
theorem intern_of_indices (known : pool.indices[constant]? = some index) :
    intern constant pool = .ok index pool := by
  rw [intern, known]

/-- A constant that is refused leaves the pool alone. -/
theorem eq_of_intern_error {error : FormatError}
    (failed : intern constant pool = .error error later) : later = pool :=
  (refused_of_intern_error failed).2.2

/-- In the slots of some constants, exactly those behind a wide one are empty. -/
private theorem slotsOf_eq_none (constants : List Constant) (slot : Nat) :
    (constants.flatMap slotsOf)[slot]? = some none ↔
      ∃ before constant, before + 1 = slot ∧
        (constants.flatMap slotsOf)[before]? = some (some constant) ∧
          constant.isWide = true := by
  induction constants generalizing slot with
  | nil => simp
  | cons first rest ih =>
    rw [List.flatMap_cons]
    unfold slotsOf at ih ⊢
    cases wide : first.isWide with
    | true =>
      rw [if_pos rfl]
      match slot with
      | 0 => simp
      | 1 => simpa using wide
      | slot + 2 =>
        have moved := ih slot
        cases slot with
        | zero => simpa using moved
        | succ before => simpa using moved
    | false =>
      rw [if_neg Bool.false_ne_true]
      match slot with
      | 0 => simp
      | slot + 1 =>
        have moved := ih slot
        cases slot with
        | zero => simpa [wide] using moved
        | succ before => simpa using moved

/-- In a filled pool, slot zero is empty and exactly those behind a wide constant are. -/
theorem Filled.get?_eq_none (filled : pool.Filled) (inside : index.toNat < pool.count) :
    pool.get? index = none ↔
      index = 0 ∨ ∃ before constant, before.toNat + 1 = index.toNat ∧
        pool.get? before = some constant ∧ constant.isWide = true := by
  obtain ⟨constants, -, slots, -⟩ := filled.exists_constants
  have slot? : ∀ n : Nat, pool.slots[n]? = (none :: constants.flatMap slotsOf)[n]? := by
    intro n
    rw [← slots, Array.getElem?_toList]
  have empty_iff : pool.get? index = none ↔ pool.slots[index.toNat]? = some none := by
    have some_slot : pool.slots[index.toNat]? = some pool.slots[index.toNat] :=
      Array.getElem?_eq_getElem inside
    rw [get?, some_slot, Option.join_some, Option.some.injEq]
  have holds_iff : ∀ before constant, pool.get? before = some constant ↔
      pool.slots[before.toNat]? = some (some constant) := by
    intro before constant
    rw [get?, Option.join_eq_some_iff]
  rw [empty_iff, slot?]
  cases place : index.toNat with
  | zero =>
    have zero : index = 0 := UInt16.toNat_inj.mp place
    simp [zero]
  | succ slot =>
    have nonzero : index ≠ 0 := by
      rintro rfl
      contradiction
    rw [List.getElem?_cons_succ, slotsOf_eq_none]
    constructor
    · rintro ⟨before, constant, rfl, found, wide⟩
      have small := index.toNat_lt
      have same : (UInt16.ofNat (before + 1)).toNat = before + 1 := by
        rw [UInt16.toNat_ofNat', Nat.mod_eq_of_lt (by omega)]
      refine .inr ⟨UInt16.ofNat (before + 1), constant, by rw [same], ?_, wide⟩
      rw [holds_iff, same, slot?]
      exact found
    · rintro (zero | ⟨before, constant, next, found, wide⟩)
      · exact absurd zero nonzero
      · rw [holds_iff, slot?] at found
        cases first : before.toNat with
        | zero =>
          rw [first, List.getElem?_cons_zero, Option.some.injEq] at found
          exact absurd found.symm (Option.some_ne_none constant)
        | succ earlier =>
          rw [first, List.getElem?_cons_succ] at found
          exact ⟨earlier, constant, by omega, found, wide⟩

end ConstantPool

namespace Pooled

open ConstantPool

variable {α β : Type}

/-- The pool that a computation leaves, whether it succeeds or fails. -/
def after (action : Pooled α) (pool : ConstantPool) : ConstantPool :=
  match action pool with
  | .ok _ later => later
  | .error _ later => later

theorem after_of_ok {action : Pooled α} {pool later : ConstantPool} {value : α}
    (done : action pool = .ok value later) : action.after pool = later := by
  rw [after, done]

theorem after_of_error {action : Pooled α} {pool later : ConstantPool} {error : FormatError}
    (failed : action pool = .error error later) : action.after pool = later := by
  rw [after, failed]

theorem bind_of_ok {action : Pooled α} {pool later : ConstantPool} {value : α}
    (done : action pool = .ok value later) (next : α → Pooled β) :
    (action >>= next) pool = next value later := by
  change EStateM.bind action next pool = _
  rw [EStateM.bind, done]

/-- Whether a computation only adds constants: also when it fails, it leaves a pool that has grown,
and after it has succeeded it gives the same value again and adds nothing. -/
structure Interns (action : Pooled α) : Prop where
  grown : ∀ pool : ConstantPool, pool.Grown (action.after pool)
  again : ∀ (pool : ConstantPool) (value : α) (later : ConstantPool),
    action pool = .ok value later →
      ∀ last, later.Grown last → action last = .ok value last

namespace Interns

variable {action : Pooled α}

theorem pure (value : α) : Interns (Pure.pure value) where
  grown _ := .refl
  again := by
    intro pool result later done last _
    change EStateM.Result.ok value pool = .ok result later at done
    simp only [EStateM.Result.ok.injEq] at done
    rw [← done.1]
    rfl

theorem throw (error : FormatError) : Interns (MonadExcept.throw error : Pooled α) where
  grown _ := .refl
  again := by
    intro pool value later never
    contradiction

theorem ofExcept (result : Except FormatError α) : Interns (Pooled.ofExcept result) := by
  cases result with
  | ok value => exact .pure value
  | error error => exact .throw error

theorem bind {next : α → Pooled β} (first : Interns action)
    (second : ∀ value, Interns (next value)) : Interns (action >>= next) where
  grown := by
    intro pool
    have begun := first.grown pool
    change pool.Grown (after (EStateM.bind action next) pool)
    cases outcome : action pool with
    | ok value middle =>
      rw [after_of_ok outcome] at begun
      have same : after (EStateM.bind action next) pool = (next value).after middle := by
        simp only [after, EStateM.bind, outcome]
      rw [same]
      exact begun.trans ((second value).grown middle)
    | error error middle =>
      rw [after_of_error outcome] at begun
      have same : after (EStateM.bind action next) pool = middle := by
        simp only [after, EStateM.bind, outcome]
      rw [same]
      exact begun
  again := by
    intro pool result later done last grown
    obtain ⟨value, middle, outcome, rest⟩ := exists_of_bind_ok done
    -- The second part leaves a pool that the pool of the first part has grown to.
    have since := (second value).grown middle
    rw [after_of_ok rest] at since
    rw [bind_of_ok (first.again pool value middle outcome last (since.trans grown))]
    exact (second value).again middle result later rest last grown

theorem intern (constant : Constant) : Interns (ConstantPool.intern constant) where
  grown := by
    intro pool
    unfold after
    split
    · rename_i done
      obtain ⟨-, rfl⟩ | ⟨fresh, accepted, -, rfl⟩ := intern_ok_cases done
      · exact .refl
      · exact .append .refl fresh accepted
    · rename_i failed
      rw [eq_of_intern_error failed]
      exact .refl
  again := by
    intro pool index later done last grown
    exact intern_of_indices (grown.indices (indices_of_intern done))

theorem utf8 (text : String) : Interns (ConstantPool.utf8 text) :=
  .intern (.utf8 text)

theorem integer (value : Int32) : Interns (ConstantPool.integer value) :=
  .intern (.integer value)

theorem classInfo (name : String) : Interns (ConstantPool.classInfo name) :=
  (utf8 name).bind fun _ => .intern _

theorem string (text : String) : Interns (ConstantPool.string text) :=
  (utf8 text).bind fun _ => .intern _

theorem nameAndType (name descriptor : String) :
    Interns (ConstantPool.nameAndType name descriptor) :=
  (utf8 name).bind fun _ => (utf8 descriptor).bind fun _ => .intern _

theorem fieldRef (ref : MemberRef) : Interns (ConstantPool.fieldRef ref) :=
  (classInfo ref.owner).bind fun _ =>
    (nameAndType ref.name ref.descriptor).bind fun _ => .intern _

theorem methodRef (ref : MemberRef) : Interns (ConstantPool.methodRef ref) :=
  (classInfo ref.owner).bind fun _ =>
    (nameAndType ref.name ref.descriptor).bind fun _ => .intern _

end Interns

end Pooled

/-- A call that asks a pool for the index of something, which it adds when it is not there. -/
inductive PoolCall
  | intern (constant : Constant)
  | utf8 (text : String)
  | integer (value : Int32)
  | classInfo (name : String)
  | string (text : String)
  | nameAndType (name descriptor : String)
  | fieldRef (ref : MemberRef)
  | methodRef (ref : MemberRef)
  deriving DecidableEq, Repr

namespace PoolCall

open ConstantPool

def run : PoolCall → Pooled UInt16
  | intern constant => ConstantPool.intern constant
  | utf8 text => ConstantPool.utf8 text
  | integer value => ConstantPool.integer value
  | classInfo name => ConstantPool.classInfo name
  | string text => ConstantPool.string text
  | nameAndType name descriptor => ConstantPool.nameAndType name descriptor
  | fieldRef ref => ConstantPool.fieldRef ref
  | methodRef ref => ConstantPool.methodRef ref

/-- Whether an index of a pool resolves to what a call asked for. -/
def ResolvesAt (pool : ConstantPool) (index : UInt16) : PoolCall → Prop
  | intern constant => pool.get? index = some constant
  | utf8 text => pool.utf8At index = .ok text
  | integer value => pool.integerAt index = .ok value
  | classInfo name => pool.classAt index = .ok name
  | string text => pool.stringAt index = .ok text
  | nameAndType name descriptor =>
    ∃ first second, pool.get? index = some (.nameAndType first second) ∧
      pool.utf8At first = .ok name ∧ pool.utf8At second = .ok descriptor
  | fieldRef ref | methodRef ref => pool.memberAt index = .ok ref

theorem interns_run (call : PoolCall) : call.run.Interns := by
  cases call with
  | intern constant => exact .intern constant
  | utf8 text => exact .utf8 text
  | integer value => exact .integer value
  | classInfo name => exact .classInfo name
  | string text => exact .string text
  | nameAndType name descriptor => exact .nameAndType name descriptor
  | fieldRef ref => exact .fieldRef ref
  | methodRef ref => exact .methodRef ref

theorem yields_run (call : PoolCall) :
    call.run.Yields fun final index => call.ResolvesAt final index := by
  cases call with
  | intern constant => exact (yields_intern constant).mono fun _ _ found => found.2
  | utf8 text => exact (yields_utf8 text).mono fun _ _ found => found.2
  | integer value => exact (yields_integer value).mono fun _ _ => integerAt_of_get?
  | classInfo name => exact (yields_classInfo name).mono fun _ _ found => found.2
  | string text =>
    refine (yields_string text).mono ?_
    rintro final index ⟨place, found, spelled⟩
    rw [ResolvesAt, stringAt, found]
    exact spelled
  | nameAndType name descriptor => exact yields_nameAndType name descriptor
  | fieldRef ref => exact yields_fieldRef ref
  | methodRef ref => exact yields_methodRef ref

/-- The pool that some calls leave, one after another, whether they succeed or fail. -/
def pool (start : ConstantPool) (calls : List PoolCall) : ConstantPool :=
  calls.foldl (fun pool call => call.run.after pool) start

theorem pool_append (start : ConstantPool) (first second : List PoolCall) :
    pool start (first ++ second) = pool (pool start first) second :=
  List.foldl_append

theorem grown_pool (start : ConstantPool) (calls : List PoolCall) :
    start.Grown (pool start calls) := by
  induction calls generalizing start with
  | nil => exact .refl
  | cons call rest ih => exact (call.interns_run.grown start).trans (ih _)

/-- What is known of the pool that some calls leave: it is not too big; no constant stands at two
indices, and each stays where it was put; slot zero and those behind long and double constants are
the empty ones; the index that a call has given resolves to what it asked for, and the call gives it
again without adding anything; and a constant that is refused changes nothing. -/
structure Orderly (calls : List PoolCall) : Prop where
  count_le : (pool .empty calls).count ≤ 65535
  distinct : ∀ first second constant, (pool .empty calls).get? first = some constant →
    (pool .empty calls).get? second = some constant → first = second
  kept : ∀ earlier, earlier <+: calls → (pool .empty earlier).Within (pool .empty calls)
  vacant : ∀ index : UInt16, index.toNat < (pool .empty calls).count →
    ((pool .empty calls).get? index = none ↔
      index = 0 ∨ ∃ before constant, before.toNat + 1 = index.toNat ∧
        (pool .empty calls).get? before = some constant ∧ constant.isWide = true)
  resolved : ∀ earlier call later index after, calls = earlier ++ call :: later →
    call.run (pool .empty earlier) = .ok index after →
      call.ResolvesAt (pool .empty calls) index ∧
        call.run (pool .empty calls) = .ok index (pool .empty calls)
  refused : ∀ earlier constant later error after, calls = earlier ++ intern constant :: later →
    (intern constant).run (pool .empty earlier) = .error error after →
      after = pool .empty earlier

/-- Any calls on the empty pool leave it in order. -/
theorem orderly_pool (calls : List PoolCall) : Orderly calls where
  count_le := Filled.count_le (grown_pool .empty calls)
  distinct := fun _ _ _ => Filled.index_unique (grown_pool .empty calls)
  kept := by
    rintro earlier ⟨later, rfl⟩
    rw [pool_append]
    exact (grown_pool _ later).within
  vacant := fun index inside => Filled.get?_eq_none (grown_pool .empty calls) inside
  resolved := by
    rintro earlier call later index after rfl done
    have sound : (pool .empty earlier).Sound := Filled.sound (grown_pool .empty earlier)
    have since : after.Grown (pool .empty (earlier ++ call :: later)) := by
      rw [pool_append, pool, List.foldl_cons, Pooled.after_of_ok done]
      exact grown_pool after later
    obtain ⟨-, resolves⟩ := call.yields_run _ _ _ sound done
    exact ⟨resolves _ since.within, call.interns_run.again _ _ _ done _ since⟩
  refused := by
    rintro earlier constant later error after - failed
    exact eq_of_intern_error failed

/-- Whatever stands behind the bytes of the pool that some calls leave, reading takes exactly these
bytes and gives that pool: with its count, its constants and the indices that they are found at. -/
theorem readPool_bytes_pool (calls : List PoolCall) (size : Nat) (behind : List UInt8) :
    readPool size ((pool .empty calls).bytes ++ behind) = .ok (pool .empty calls, behind) :=
  Filled.reads (grown_pool .empty calls) size behind

end PoolCall

end ResourceClasses.ClassFile
