import ResourceClasses.Proofs.ClassFile.Pool

/-!
Names and members in a pool: what was added by name is found again at its index.
-/

set_option autoImplicit false

namespace ResourceClasses.ClassFile.ConstantPool

open Pooled

variable {pool : ConstantPool}

theorem utf8At_eq_ok {index : UInt16} {text : String} :
    pool.utf8At index = .ok text ↔ pool.get? index = some (.utf8 text) := by
  unfold utf8At
  split
  · rename_i found
    rw [found]
    simp
  · rename_i other
    constructor
    · intro found
      contradiction
    · intro found
      exact absurd found (other text)

theorem classAt_eq_ok {index : UInt16} {name : String} :
    pool.classAt index = .ok name ↔
      ∃ place, pool.get? index = some (.classInfo place) ∧ pool.utf8At place = .ok name := by
  unfold classAt
  split
  · rename_i place found
    rw [found]
    simp
  · rename_i other
    constructor
    · intro found
      contradiction
    · rintro ⟨place, found, _⟩
      exact absurd found (other place)

theorem memberOf_eq_ok {owner selector : UInt16} {ref : MemberRef} :
    pool.memberOf owner selector = .ok ref ↔
      ∃ first second, pool.get? selector = some (.nameAndType first second) ∧
        pool.classAt owner = .ok ref.owner ∧ pool.utf8At first = .ok ref.name ∧
          pool.utf8At second = .ok ref.descriptor := by
  constructor
  · intro found
    unfold memberOf at found
    split at found
    · rename_i first second pair
      cases owned : pool.classAt owner with
      | error e => rw [owned] at found; contradiction
      | ok class_name =>
        cases named : pool.utf8At first with
        | error e => rw [owned, named] at found; contradiction
        | ok name =>
          cases typed : pool.utf8At second with
          | error e => rw [owned, named, typed] at found; contradiction
          | ok descriptor =>
            rw [owned, named, typed] at found
            cases found
            exact ⟨first, second, pair, rfl, named, typed⟩
    · contradiction
  · rintro ⟨first, second, pair, owned, named, typed⟩
    simp only [memberOf, pair, owned, named, typed]
    rfl

/-- An interned constant has an index that is not zero and leads to it from then on. -/
theorem yields_intern (constant : Constant) :
    Yields (intern constant) fun final index =>
      index ≠ 0 ∧ final.get? index = some constant := by
  intro pool index later sound done
  obtain ⟨grown, found⟩ := intern_spec sound done
  have nonzero : index ≠ 0 := by
    intro zero
    rw [zero, (grown.sound sound).get?_zero] at found
    contradiction
  exact ⟨grown, fun final last => ⟨nonzero, last index constant found⟩⟩

theorem yields_utf8 (text : String) :
    Yields (utf8 text) fun final index => index ≠ 0 ∧ final.utf8At index = .ok text := by
  refine (yields_intern (.utf8 text)).mono ?_
  intro final index found
  exact ⟨found.1, utf8At_eq_ok.mpr found.2⟩

theorem yields_integer (value : Int32) :
    Yields (integer value) fun final index => final.get? index = some (.integer value) := by
  refine (yields_intern (.integer value)).mono ?_
  intro final index found
  exact found.2

theorem integerAt_of_get? {index : UInt16} {value : Int32}
    (found : pool.get? index = some (.integer value)) : pool.integerAt index = .ok value := by
  rw [integerAt, found]

theorem yields_classInfo (name : String) :
    Yields (classInfo name) fun final index => index ≠ 0 ∧ final.classAt index = .ok name := by
  refine (yields_utf8 name).bind ?_
  intro text
  refine (yields_intern _).mono ?_
  intro final index found named
  exact ⟨found.1, classAt_eq_ok.mpr ⟨text, found.2, named.2⟩⟩

theorem yields_string (text : String) :
    Yields (string text) fun final index =>
      ∃ place, final.get? index = some (.string place) ∧ final.utf8At place = .ok text := by
  refine (yields_utf8 text).bind ?_
  intro place
  refine (yields_intern _).mono ?_
  intro final index found spelled
  exact ⟨place, found.2, spelled.2⟩

theorem yields_nameAndType (name descriptor : String) :
    Yields (nameAndType name descriptor) fun final index =>
      ∃ first second, final.get? index = some (.nameAndType first second) ∧
        final.utf8At first = .ok name ∧ final.utf8At second = .ok descriptor := by
  refine (yields_utf8 name).bind ?_
  intro first
  refine (yields_utf8 descriptor).bind ?_
  intro second
  refine (yields_intern _).mono ?_
  intro final index found typed named
  exact ⟨first, second, found.2, named.2, typed.2⟩

/-- A reference that is made of an owner and a selector leads to the member it was made for. -/
private theorem yields_member (ref : MemberRef) {make : UInt16 → UInt16 → Constant}
    (leads : ∀ (pool : ConstantPool) index owner selector,
      pool.get? index = some (make owner selector) →
        pool.memberAt index = pool.memberOf owner selector) :
    Yields
      (do
        let owner ← classInfo ref.owner
        let selector ← nameAndType ref.name ref.descriptor
        intern (make owner selector))
      fun final index => final.memberAt index = .ok ref := by
  refine (yields_classInfo ref.owner).bind ?_
  intro owner
  refine (yields_nameAndType ref.name ref.descriptor).bind ?_
  intro selector
  refine (yields_intern _).mono ?_
  intro final index found selected owned
  obtain ⟨first, second, pair, named, typed⟩ := selected
  rw [leads final index owner selector found.2]
  exact memberOf_eq_ok.mpr ⟨first, second, pair, owned.2, named, typed⟩

theorem yields_fieldRef (ref : MemberRef) :
    Yields (fieldRef ref) fun final index => final.memberAt index = .ok ref := by
  refine yields_member ref ?_
  intro pool index owner selector found
  rw [memberAt, found]

theorem yields_methodRef (ref : MemberRef) :
    Yields (methodRef ref) fun final index => final.memberAt index = .ok ref := by
  refine yields_member ref ?_
  intro pool index owner selector found
  rw [memberAt, found]

end ResourceClasses.ClassFile.ConstantPool
