import ResourceClasses.Proofs.Field.Filtering
import ResourceClasses.Proofs.Field.Merging

/-!
Field tables as plain lists: whatever is done with tables, they show what a plain list of fields
with their types would show.

Main statements:
* `fieldTable_refines`: after any calls each table shows the pairs of the plain store that went
  through the same calls; filters commute, and merging is associative and idempotent.
* `FieldTable.types_after`: as long as nothing is filtered, the types of a table come in the order in
  which they were first pushed.
-/

set_option autoImplicit false

namespace ResourceClasses

/-- A plain store: each field with its type in the order in which they came, and the types that have
fields. The types are kept apart, because a filter leaves them in the order of their first fields
even if it drops these fields. -/
structure PairStore (α : Type) where
  types : List ResourceType
  pairs : List (ResourceType × α)

variable {α : Type} [ResourceField α]

namespace PairStore

def empty : PairStore α :=
  ⟨[], []⟩

/-- Whether a list has a pair with the type and the name of a given one. -/
def hasKey (pairs : List (ResourceType × α)) (pair : ResourceType × α) : Bool :=
  pairs.any fun other =>
    other.1 == pair.1 && ResourceField.name other.2 == ResourceField.name pair.2

def push (store : PairStore α) (type : ResourceType) (field : α) : PairStore α where
  types := if type ∈ store.types then store.types else store.types ++ [type]
  pairs := store.pairs ++ [(type, field)]

/-- The pairs whose type and name a list lacks, the first one of each. -/
def lacking (known : List (ResourceType × α)) :
    List (ResourceType × α) → List (ResourceType × α)
  | [] => []
  | pair :: rest =>
    if hasKey known pair then lacking known rest else pair :: lacking (known ++ [pair]) rest

def merge (store other : PairStore α) : PairStore α where
  types := store.types ++ other.types.filter fun type => type ∉ store.types
  pairs := store.pairs ++ lacking store.pairs other.pairs

def filter (store keep : PairStore α) : PairStore α :=
  let kept := store.pairs.filter (hasKey keep.pairs)
  ⟨store.types.filter fun type => kept.any fun pair => pair.1 == type, kept⟩

end PairStore

/-- What can be done with stores of fields of one kind. -/
structure StoreOperations (α σ : Type) where
  empty : σ
  push : σ → ResourceType → α → σ
  merge : σ → σ → σ
  filter : σ → σ → σ

def FieldTable.operations : StoreOperations α (FieldTable α) :=
  ⟨.empty, .push, .merge, .filter⟩

def PairStore.operations : StoreOperations α (PairStore α) :=
  ⟨.empty, .push, .merge, .filter⟩

/-- A call on stores that are told apart by numbers: a field is pushed to a store, a store is merged
into another one, or a store becomes what a filter leaves of another one. -/
inductive StoreCall (α : Type)
  | push (target : Nat) (type : ResourceType) (field : α)
  | merge (target other : Nat)
  | filter (target source keep : Nat)

section

variable {σ : Type}

def StoreCall.perform (operations : StoreOperations α σ) (stores : Nat → σ) :
    StoreCall α → Nat → σ
  | .push target type field =>
    Function.update stores target (operations.push (stores target) type field)
  | .merge target other =>
    Function.update stores target (operations.merge (stores target) (stores other))
  | .filter target source keep =>
    Function.update stores target (operations.filter (stores source) (stores keep))

/-- The stores after some calls, when all of them are empty before. -/
def StoreOperations.after (operations : StoreOperations α σ) (calls : List (StoreCall α)) :
    Nat → σ :=
  calls.foldl (StoreCall.perform operations) fun _ => operations.empty

end

/-- Whether a table shows a plain store: for a type its fields in order; which names a type has;
type by type what there is, each type that has a field once, in the order of the types; and how many
pairs there are. -/
structure FieldTable.Shows (table : FieldTable α) (store : PairStore α) : Prop where
  get : ∀ type, table.get? type =
    if (fieldsOf type store.pairs).isEmpty then none else some (fieldsOf type store.pairs)
  contains : ∀ type name, table.contains type name = true ↔
    ∃ field ∈ fieldsOf type store.pairs, ResourceField.name field = name
  rows : table.toList = store.types.map fun type => (type, fieldsOf type store.pairs)
  once : store.types.Nodup
  typed : ∀ type, type ∈ store.types ↔ ∃ pair ∈ store.pairs, pair.1 = type
  size : table.size = store.pairs.length
  isEmpty : table.isEmpty = true ↔ table.size = 0

/-- Whether a table has the types of a plain store in the same order, and its fields of each
type. -/
structure FieldTable.Mirrors (table : FieldTable α) (store : PairStore α) : Prop where
  types : table.types = store.types
  fields : ∀ type, table.ofType type = fieldsOf type store.pairs

namespace FieldTable

theorem Mirrors.shows {table : FieldTable α} {store : PairStore α} (same : table.Mirrors store) :
    table.Shows store := by
  have typed : ∀ type, type ∈ store.types ↔ ∃ pair ∈ store.pairs, pair.1 = type := by
    intro type
    rw [← same.types, mem_types_iff, same.fields, Ne, fieldsOf_eq_nil_iff, not_not, List.mem_map]
  have once : store.types.Nodup := same.types ▸ table.nodup_types
  constructor
  · intro type
    rw [get?_eq, same.fields]
  · intro type name
    rw [contains_iff, ← same.fields]
    rfl
  · rw [toList_eq, same.types]
    exact List.map_congr_left fun type _ => congrArg (Prod.mk type) (same.fields type)
  · exact once
  · exact typed
  · rw [size_eq, same.types]
    simp only [same.fields]
    exact total_fieldsOf once fun pair member => (typed pair.1).mpr ⟨pair, member, rfl⟩
  · constructor
    · intro no_group
      rw [size, List.isEmpty_iff.mp no_group]
      rfl
    · intro no_field
      by_contra some_group
      exact absurd no_field (Nat.ne_of_gt (size_pos (Bool.eq_false_iff.mpr some_group)))

private theorem hasKey_eq (pairs : List (ResourceType × α)) (pair : ResourceType × α) :
    PairStore.hasKey pairs pair = (fieldsOf pair.1 pairs).any fun field =>
      ResourceField.name field == ResourceField.name pair.2 := by
  rw [fieldsOf, List.any_map, List.any_filter]
  rfl

private theorem addFirst_of_hasKey {known : List (ResourceType × α)} {pair : ResourceType × α}
    (has : PairStore.hasKey known pair = true) :
    addFirst (fieldsOf pair.1 known) pair.2 = fieldsOf pair.1 known := by
  rw [hasKey_eq] at has
  rw [addFirst, if_pos has]

private theorem addFirst_of_lacks {known : List (ResourceType × α)} {pair : ResourceType × α}
    (lacks : PairStore.hasKey known pair = false) :
    addFirst (fieldsOf pair.1 known) pair.2 = fieldsOf pair.1 (known ++ [pair]) := by
  rw [hasKey_eq] at lacks
  rw [addFirst, lacks, if_neg Bool.false_ne_true, fieldsOf_append, fieldsOf_cons, if_pos rfl]
  rfl

private theorem fieldsOf_lacking (known added : List (ResourceType × α)) (type : ResourceType) :
    fieldsOf type (known ++ PairStore.lacking known added) =
      (fieldsOf type added).foldl addFirst (fieldsOf type known) := by
  induction added generalizing known with
  | nil => rw [PairStore.lacking, List.append_nil]; rfl
  | cons pair rest ih =>
    rw [PairStore.lacking, fieldsOf_cons]
    cases has : PairStore.hasKey known pair with
    | true =>
      rw [if_pos rfl, ih]
      split
      · rename_i same
        rw [← same, List.foldl_cons, addFirst_of_hasKey has]
      · rfl
    | false =>
      rw [if_neg Bool.false_ne_true, ← List.singleton_append, ← List.append_assoc, ih]
      split
      · rename_i same
        rw [← same, List.foldl_cons, addFirst_of_lacks has]
      · rename_i different
        have none : fieldsOf type ([] : List (ResourceType × α)) = [] := rfl
        rw [fieldsOf_append, fieldsOf_cons, if_neg different, none, List.append_nil]

variable {table other : FieldTable α} {store plain : PairStore α}

theorem mirrors_empty : (empty : FieldTable α).Mirrors .empty :=
  ⟨rfl, fun _ => rfl⟩

theorem Mirrors.push (same : table.Mirrors store) (type : ResourceType) (field : α) :
    (table.push type field).Mirrors (store.push type field) where
  types := by
    rw [types_push, same.types]
    rfl
  fields := by
    intro other
    rw [ofType_push, same.fields, PairStore.push, fieldsOf_append, fieldsOf_cons]
    by_cases typed : other = type
    · rw [if_pos typed, if_pos typed.symm]
      rfl
    · rw [if_neg typed, if_neg (Ne.symm typed)]
      exact (List.append_nil _).symm

theorem Mirrors.merge (same : table.Mirrors store) (same' : other.Mirrors plain) :
    (table.merge other).Mirrors (store.merge plain) where
  types := by
    have once := table.nodup_types
    have once' := other.nodup_types
    rw [same.types] at once
    rw [same'.types] at once'
    rw [types_merge, same.types, same'.types, List.eraseDups_append, eraseDups_of_nodup once,
      List.removeAll, eraseDups_filter, eraseDups_of_nodup once', PairStore.merge]
    simp
  fields := by
    intro type
    rw [ofType_merge, same.fields, same'.fields, PairStore.merge, fieldsOf_lacking]

theorem Mirrors.filter (same : table.Mirrors store) (same' : other.Mirrors plain) :
    (table.filter other).Mirrors (store.filter plain) := by
  have kept : ∀ type,
      (table.filter other).ofType type = fieldsOf type (store.filter plain).pairs := by
    intro type
    have keeps_eq : other.keeps type = fun field => PairStore.hasKey plain.pairs (type, field) := by
      funext field
      rw [keeps, contains_eq_any, same'.fields, hasKey_eq]
    rw [ofType_filter, same.fields, PairStore.filter, fieldsOf_filter, keeps_eq]
  refine ⟨?_, kept⟩
  rw [types_filter, same.types, PairStore.filter]
  apply List.filter_congr
  intro type _
  have typed : fieldsOf type (store.filter plain).pairs = [] ↔ _ := fieldsOf_eq_nil_iff
  rw [← kept, ofType_filter] at typed
  rw [Bool.eq_iff_iff, Bool.not_eq_true', ← Bool.not_eq_true, List.isEmpty_iff, typed, not_not,
    List.mem_map, List.any_eq_true]
  simp only [beq_iff_eq]
  rfl

end FieldTable

/-- Calls keep each table in step with its plain store. -/
theorem StoreCall.mirrors_perform {tables : Nat → FieldTable α} {stores : Nat → PairStore α}
    (same : ∀ number, (tables number).Mirrors (stores number)) (call : StoreCall α) (number : Nat) :
    (call.perform FieldTable.operations tables number).Mirrors
      (call.perform PairStore.operations stores number) := by
  have updated : ∀ {target : Nat} {table : FieldTable α} {store : PairStore α},
      table.Mirrors store →
        (Function.update tables target table number).Mirrors
          (Function.update stores target store number) := by
    intro target table store new
    rw [Function.update_apply, Function.update_apply]
    split
    · exact new
    · exact same number
  cases call with
  | push target type field => exact updated ((same target).push type field)
  | merge target other => exact updated ((same target).merge (same other))
  | filter target source keep => exact updated ((same source).filter (same keep))

theorem StoreOperations.mirrors_after (calls : List (StoreCall α)) (number : Nat) :
    (FieldTable.operations.after calls number).Mirrors
      (PairStore.operations.after calls number) := by
  induction calls using List.reverseRecOn generalizing number with
  | nil => exact FieldTable.mirrors_empty
  | append_singleton calls call ih =>
    rw [after, after, List.foldl_concat, List.foldl_concat]
    exact call.mirrors_perform ih number

section

variable {store other : PairStore α}

/-- Whether the types of a plain store are those of its pairs, each where it is first. -/
def PairStore.InOrder (store : PairStore α) : Prop :=
  store.types = (store.pairs.map Prod.fst).eraseDups

omit [ResourceField α] in
theorem PairStore.InOrder.push (ordered : store.InOrder) (type : ResourceType) (field : α) :
    (store.push type field).InOrder := by
  rw [InOrder] at ordered
  rw [InOrder, PairStore.push, ordered, List.map_append, List.map_singleton, eraseDups_concat]
  simp only [List.mem_eraseDups]

/-- A pair that is left out because its type and name are known has no new type. -/
private theorem eraseDups_types_lacking (known added : List (ResourceType × α)) :
    ((known ++ PairStore.lacking known added).map Prod.fst).eraseDups =
      ((known ++ added).map Prod.fst).eraseDups := by
  induction added generalizing known with
  | nil => rfl
  | cons pair rest ih =>
    rw [PairStore.lacking]
    cases has : PairStore.hasKey known pair with
    | true =>
      obtain ⟨first, member, same⟩ := List.any_eq_true.mp has
      have same_type : first.1 = pair.1 := by
        rw [Bool.and_eq_true, beq_iff_eq] at same
        exact same.1
      have old : pair.1 ∈ known.map Prod.fst := same_type ▸ List.mem_map_of_mem member
      have unchanged : ((known ++ [pair]).map Prod.fst).eraseDups =
          (known.map Prod.fst).eraseDups := by
        rw [List.map_append, List.map_singleton, eraseDups_concat, if_pos old]
      rw [if_pos rfl, ih, List.append_cons, List.map_append, List.map_append]
      exact eraseDups_append_congr unchanged.symm rfl
    | false =>
      rw [if_neg Bool.false_ne_true, List.append_cons, ih, ← List.append_cons]

theorem PairStore.InOrder.merge (ordered : store.InOrder) (ordered' : other.InOrder) :
    (store.merge other).InOrder := by
  rw [InOrder] at ordered ordered'
  have known : ∀ type, type ∈ store.types ↔ type ∈ store.pairs.map Prod.fst := by
    intro type
    rw [ordered, List.mem_eraseDups]
  rw [InOrder, PairStore.merge, eraseDups_types_lacking, List.map_append, List.eraseDups_append,
    List.removeAll, eraseDups_filter, ← ordered, ← ordered']
  refine congrArg (store.types ++ ·) (List.filter_congr fun type _ => ?_)
  rw [List.elem_eq_mem, decide_not, decide_eq_decide.mpr (known type)]

end

def StoreCall.Filters : StoreCall α → Prop
  | .filter .. => True
  | _ => False

theorem StoreCall.inOrder_perform {stores : Nat → PairStore α}
    (ordered : ∀ number, (stores number).InOrder) (call : StoreCall α) (keeps : ¬call.Filters)
    (number : Nat) : (call.perform PairStore.operations stores number).InOrder := by
  cases call with
  | push target type field =>
    rw [perform, Function.update_apply]
    split
    · exact (ordered target).push type field
    · exact ordered number
  | merge target other =>
    rw [perform, Function.update_apply]
    split
    · exact (ordered target).merge (ordered other)
    · exact ordered number
  | filter => exact absurd trivial keeps

/-- As long as nothing is filtered, the types of a table come in the order in which they were first
pushed. -/
theorem FieldTable.types_after (calls : List (StoreCall α)) (keep : ∀ call ∈ calls, ¬call.Filters)
    (number : Nat) :
    (FieldTable.operations.after calls number).types =
      ((PairStore.operations.after calls number).pairs.map Prod.fst).eraseDups := by
  have ordered : (PairStore.operations.after calls number).InOrder := by
    induction calls using List.reverseRecOn generalizing number with
    | nil => rfl
    | append_singleton calls call ih =>
      rw [List.forall_mem_append, List.forall_mem_singleton] at keep
      rw [StoreOperations.after, List.foldl_concat]
      exact call.inOrder_perform (fun number => ih keep.1 number) keep.2 number
  rw [(StoreOperations.mirrors_after calls number).types]
  exact ordered

/-- Tables refine plain lists of fields with their types: after any calls each table shows what the
same calls make of plain stores. Filters can be applied in either order, and filtering a table with
itself keeps it; a merged table has the fields of the first one and then the first of each name that
this one lacks, so that merging is associative, and merging a table into itself changes nothing. -/
theorem fieldTable_refines :
    (∀ (calls : List (StoreCall α)) number,
      (FieldTable.operations.after calls number).Shows (PairStore.operations.after calls number)) ∧
    (∀ table first second : FieldTable α,
      (table.filter first).filter second = (table.filter second).filter first) ∧
    (∀ table : FieldTable α, (table.filter table).toList = table.toList) ∧
    (∀ (table other : FieldTable α) type, (table.merge other).ofType type =
      table.ofType type ++ firsts ((other.ofType type).filter fun field =>
        !table.contains type (ResourceField.name field))) ∧
    (∀ first second third : FieldTable α,
      ((first.merge second).merge third).toList = (first.merge (second.merge third)).toList) ∧
    ∀ table : FieldTable α, table.merge table = table :=
  ⟨fun calls number => (StoreOperations.mirrors_after calls number).shows, FieldTable.filter_comm,
    FieldTable.toList_filter_self, FieldTable.ofType_merge_eq, FieldTable.toList_merge_assoc,
    FieldTable.merge_self⟩

end ResourceClasses
