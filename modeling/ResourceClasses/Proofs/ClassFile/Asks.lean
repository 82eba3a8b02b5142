import ResourceClasses.Proofs.ClassFile.Entry

/-!
What a computation over a growing pool asks for: it ends with a value unless one of the texts that
it asks for is too long, or the pool has no slot left for one of its entries.
-/

set_option autoImplicit false

namespace ResourceClasses.ClassFile

namespace ConstantPool

/-- The reasons for which a pool refuses one of the given entries. -/
inductive Refuses (entries : Entry → Prop) (pool : ConstantPool) : FormatError → Prop
  | tooLong {entry : Entry} (wanted : entries entry) (long : maxCount < entry.textLength) :
      Refuses entries pool (.utf8TooLong entry.textLength)
  | full (crowded : pool.Crowded entries) : Refuses entries pool .constantPoolOverflow

end ConstantPool

namespace Pooled

open ConstantPool

variable {α β : Type} {entries : Entry → Prop} {good : α → Prop} {other : β → Prop}
  {pool : ConstantPool}

/-- Whether a computation ended with a good value and a pool of the given entries, or was refused
one of them. -/
def Ends (entries : Entry → Prop) (good : α → Prop) :
    EStateM.Result FormatError ConstantPool α → Prop
  | .ok value later => later.Filled ∧ later.Covered entries ∧ good value
  | .error e last => last.Refuses entries e

/-- Whether a computation on pools of the given entries always ends so. -/
def Asks (action : Pooled α) (entries : Entry → Prop) (good : α → Prop) : Prop :=
  ∀ pool : ConstantPool, pool.Filled → pool.Covered entries → Ends entries good (action pool)

theorem ends_bind {first : Pooled α} {next : α → Pooled β} (head : Ends entries good (first pool))
    (tail : ∀ value later, first pool = .ok value later → later.Filled →
      later.Covered entries → good value → Ends entries other (next value later)) :
    Ends entries other ((first >>= next) pool) := by
  change Ends entries other (EStateM.bind first next pool)
  unfold EStateM.bind
  cases result : first pool with
  | ok value later =>
    rw [result] at head
    obtain ⟨filled, covered, value_good⟩ := head
    exact tail value later result filled covered value_good
  | error e last =>
    rw [result] at head
    exact head

/-- What the first part yields is known where the second part begins and from then on. -/
theorem ends_bind_known {first : Pooled α} {next : α → Pooled β}
    {fact : ConstantPool → α → Prop} (head : Asks first entries good)
    (known : Yields first fact) (filled : pool.Filled) (covered : pool.Covered entries)
    (tail : ∀ value later, later.Filled → later.Covered entries → pool.Within later →
      (∀ final, later.Within final → fact final value) →
        Ends entries other (next value later)) :
    Ends entries other ((first >>= next) pool) := by
  refine ends_bind (head pool filled covered) ?_
  intro value later done later_filled later_covered _
  obtain ⟨grown, yielded⟩ := known pool value later filled.sound done
  exact tail value later later_filled later_covered grown.within yielded

/-- An entry that is asked for is added, or the pool refuses it. -/
theorem ends_intern (filled : pool.Filled) (covered : pool.Covered entries) {constant : Constant}
    {entry : Entry} (wanted : entries entry) (means : pool.Means constant entry) :
    Ends entries (fun _ => True) (intern constant pool) := by
  cases result : intern constant pool with
  | ok index later =>
    obtain ⟨-, rfl⟩ | ⟨fresh, accepted, -, rfl⟩ := intern_ok_cases result
    · exact ⟨filled, covered, trivial⟩
    · have grown : pool.Grown (pool.append constant) := .append .refl fresh accepted
      refine ⟨Grown.trans filled grown, ?_, trivial⟩
      intro place held found
      rcases get?_append_cases found with old | new
      · obtain ⟨known, listed, held_means⟩ := covered place held old
        exact ⟨known, listed, held_means.mono grown.within⟩
      · rw [new]
        exact ⟨entry, wanted, means.mono grown.within⟩
  | error refusal later =>
    obtain ⟨fresh, refused, rfl⟩ := refused_of_intern_error result
    rw [refusal?_eq] at refused
    split at refused
    · rename_i long
      cases refused
      rw [means.textLength] at long ⊢
      exact .tooLong wanted long
    · split at refused
      · rename_i overfull
        cases refused
        refine .full ⟨filled, covered, ?_, entry, wanted, ?_⟩
        · rw [means.width] at overfull
          omega
        · intro place held found held_means
          rw [filled.means_unique held_means means] at found
          exact fresh (mem_indices_iff.mpr ⟨place, filled.indices_of_get? found⟩)
      · contradiction

namespace Asks

variable {action : Pooled α}

theorem pure {value : α} (holds : good value) : Asks (Pure.pure value) entries good := by
  intro pool filled covered
  exact ⟨filled, covered, holds⟩

theorem mono {weaker : α → Prop} (asks : Asks action entries good)
    (implies : ∀ value, good value → weaker value) : Asks action entries weaker := by
  intro pool filled covered
  have ended := asks pool filled covered
  cases result : action pool with
  | ok value later =>
    rw [result] at ended
    obtain ⟨later_filled, later_covered, holds⟩ := ended
    exact ⟨later_filled, later_covered, implies value holds⟩
  | error e last =>
    rw [result] at ended
    exact ended

theorem ofExcept {result : Except FormatError α} {value : α} (known : result = .ok value) :
    Asks (Pooled.ofExcept result) entries fun found => found = value := by
  intro pool filled covered
  rw [known]
  exact ⟨filled, covered, rfl⟩

theorem bind {next : α → Pooled β} (head : Asks action entries good)
    (tail : ∀ value, good value → Asks (next value) entries other) :
    Asks (action >>= next) entries other := by
  intro pool filled covered
  refine ends_bind (head pool filled covered) ?_
  intro value later _ later_filled later_covered value_good
  exact tail value value_good later later_filled later_covered

/-- A computation that asks for any entries takes linked pools to linked pools. -/
theorem linked {value : α} {later : ConstantPool} (asks : Asks action (fun _ => True) good)
    (start : pool.Linked) (done : action pool = .ok value later) : later.Linked := by
  have ended := asks pool start.filled start.covered
  rw [done] at ended
  obtain ⟨filled, covered, _⟩ := ended
  exact ⟨filled, covered⟩

end Asks

end Pooled

namespace ConstantPool

open Pooled

variable {entries : Entry → Prop}

theorem asks_utf8 {text : String} (wanted : entries (.utf8 text)) :
    Asks (utf8 text) entries fun _ => True := by
  intro pool filled covered
  exact ends_intern filled covered wanted rfl

theorem asks_integer {value : Int32} (wanted : entries (.integer value)) :
    Asks (integer value) entries fun _ => True := by
  intro pool filled covered
  exact ends_intern filled covered wanted rfl

theorem asks_classInfo {name : String} (wanted : ∀ entry ∈ Entry.ofClass name, entries entry) :
    Asks (classInfo name) entries fun _ => True := by
  intro pool filled covered
  have wanted_name : entries (.utf8 name) := wanted _ (by simp [Entry.ofClass])
  have wanted_class : entries (.classInfo name) := wanted _ (by simp [Entry.ofClass])
  refine ends_bind_known (asks_utf8 wanted_name) (yields_utf8 name) filled covered ?_
  intro place later later_filled later_covered _ named
  exact ends_intern later_filled later_covered wanted_class
    ⟨place, rfl, (named later (Within.refl later)).2⟩

theorem asks_string {text : String} (wanted : ∀ entry ∈ Entry.ofString text, entries entry) :
    Asks (string text) entries fun _ => True := by
  intro pool filled covered
  have wanted_text : entries (.utf8 text) := wanted _ (by simp [Entry.ofString])
  have wanted_string : entries (.string text) := wanted _ (by simp [Entry.ofString])
  refine ends_bind_known (asks_utf8 wanted_text) (yields_utf8 text) filled covered ?_
  intro place later later_filled later_covered _ spelled
  exact ends_intern later_filled later_covered wanted_string
    ⟨place, rfl, (spelled later (Within.refl later)).2⟩

theorem asks_nameAndType {name descriptor : String} (wanted_name : entries (.utf8 name))
    (wanted_type : entries (.utf8 descriptor))
    (wanted_pair : entries (.nameAndType name descriptor)) :
    Asks (nameAndType name descriptor) entries fun _ => True := by
  intro pool filled covered
  refine ends_bind_known (asks_utf8 wanted_name) (yields_utf8 name) filled covered ?_
  intro first middle middle_filled middle_covered _ named
  refine ends_bind_known (asks_utf8 wanted_type) (yields_utf8 descriptor) middle_filled
    middle_covered ?_
  intro second later later_filled later_covered grown typed
  exact ends_intern later_filled later_covered wanted_pair
    ⟨first, second, rfl, (named later grown).2, (typed later (Within.refl later)).2⟩

private theorem asks_member {ref : MemberRef} {make : UInt16 → UInt16 → Constant} {entry : Entry}
    (means : ∀ (pool : ConstantPool) owner selector, pool.memberOf owner selector = .ok ref →
      pool.Means (make owner selector) entry)
    (wanted : ∀ part ∈ Entry.ofMember ref, entries part) (wanted_entry : entries entry) :
    Asks
      (do
        let owner ← classInfo ref.owner
        let selector ← nameAndType ref.name ref.descriptor
        intern (make owner selector))
      entries fun _ => True := by
  intro pool filled covered
  have wanted_owner : ∀ part ∈ Entry.ofClass ref.owner, entries part := by
    intro part member
    exact wanted part (List.mem_append_left _ member)
  refine ends_bind_known (asks_classInfo wanted_owner) (yields_classInfo ref.owner) filled
    covered ?_
  intro owner middle middle_filled middle_covered _ owned
  have pair := asks_nameAndType (wanted _ (by simp [Entry.ofMember]))
    (wanted (.utf8 ref.descriptor) (by simp [Entry.ofMember]))
    (wanted (.nameAndType ref.name ref.descriptor) (by simp [Entry.ofMember]))
  refine ends_bind_known pair (yields_nameAndType ref.name ref.descriptor) middle_filled
    middle_covered ?_
  intro selector later later_filled later_covered grown selected
  obtain ⟨first, second, found, named, typed⟩ := selected later (Within.refl later)
  have leads : later.memberOf owner selector = .ok ref :=
    memberOf_eq_ok.mpr ⟨first, second, found, (owned later grown).2, named, typed⟩
  exact ends_intern later_filled later_covered wanted_entry (means later owner selector leads)

theorem asks_fieldRef {ref : MemberRef} (wanted : ∀ entry ∈ Entry.ofField ref, entries entry) :
    Asks (fieldRef ref) entries fun _ => True := by
  refine asks_member ?_ ?_ (wanted (.fieldRef ref) (by simp [Entry.ofField]))
  · intro pool owner selector leads
    exact ⟨owner, selector, rfl, leads⟩
  · intro part member
    exact wanted part (List.mem_append_left _ member)

theorem asks_methodRef {ref : MemberRef} (wanted : ∀ entry ∈ Entry.ofMethod ref, entries entry) :
    Asks (methodRef ref) entries fun _ => True := by
  refine asks_member ?_ ?_ (wanted (.methodRef ref) (by simp [Entry.ofMethod]))
  · intro pool owner selector leads
    exact ⟨owner, selector, rfl, leads⟩
  · intro part member
    exact wanted part (List.mem_append_left _ member)

end ConstantPool

end ResourceClasses.ClassFile
