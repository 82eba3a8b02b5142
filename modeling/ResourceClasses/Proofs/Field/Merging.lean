import ResourceClasses.Proofs.Field.Table

/-!
Merged field tables as wholes: which fields are added, in which order, is all that counts, and of
fields that are added one after another the first one of each type and name wins.
-/

set_option autoImplicit false

namespace ResourceClasses.FieldTable

variable {α : Type} [ResourceField α]

/-- Tables with the same types and the same group for each type are the same. -/
private theorem eq_of_lookup {table other : FieldTable α} (types_eq : table.types = other.types)
    (lookup_eq : ∀ type, table.groups.lookup type = other.groups.lookup type) : table = other := by
  have listed : ∀ table : FieldTable α,
      table.groups.map (fun entry => (entry.1, some entry.2)) =
        table.types.map fun type => (type, table.groups.lookup type) := by
    intro table
    rw [types, List.map_map]
    apply List.map_congr_left
    rintro ⟨type, group⟩ member
    simp [lookup_of_mem table.nodup member]
  have injective : Function.Injective fun entry : ResourceType × FieldGroup α =>
      (entry.1, some entry.2) := by
    rintro ⟨first, group⟩ ⟨second, other⟩ same
    simpa using same
  have groups_eq : table.groups = other.groups := by
    apply List.map_injective_iff.mpr injective
    simp only [listed, types_eq, lookup_eq]
  obtain ⟨groups, nodup⟩ := table
  obtain ⟨groups', nodup'⟩ := other
  subst groups_eq
  rfl

/-- A group, if there is one, with one more field, unless it has one of its name. -/
private def addToGroup (group : Option (FieldGroup α)) (field : α) : Option (FieldGroup α) :=
  match group with
  | some group =>
    some (if group.names.contains (ResourceField.name field) then group else group.push field)
  | none => some (.singleton field)

private theorem lookup_addNew (table : FieldTable α) (entry : ResourceType × α)
    (type : ResourceType) :
    (table.addNew entry).groups.lookup type =
      if entry.1 = type then addToGroup (table.groups.lookup type) entry.2
      else table.groups.lookup type := by
  obtain ⟨other, field⟩ := entry
  have pushed : (table.push other field).groups.lookup type = _ :=
    lookup_addToGroups other type field table.groups
  unfold addNew
  by_cases same : other = type
  · subst same
    rw [if_pos rfl] at pushed ⊢
    cases found : table.groups.lookup other with
    | none => simp [addToGroup, contains, pushed, found]
    | some group =>
      cases known : group.names.contains (ResourceField.name field) <;>
        simp [addToGroup, contains, pushed, found, known]
  · rw [if_neg (Ne.symm same)] at pushed
    rw [if_neg same]
    split
    · rfl
    · exact pushed

private theorem lookup_foldl_addNew (table : FieldTable α) (entries : List (ResourceType × α))
    (type : ResourceType) :
    (entries.foldl addNew table).groups.lookup type =
      (fieldsOf type entries).foldl addToGroup (table.groups.lookup type) := by
  induction entries generalizing table with
  | nil => rfl
  | cons entry rest ih =>
    rw [List.foldl_cons, ih, lookup_addNew, fieldsOf_cons]
    split <;> rfl

/-- Fields can be added type by type, as long as the types and the fields of each type keep their
order. -/
private theorem foldl_addNew_congr {entries others : List (ResourceType × α)}
    (types_eq : (entries.map Prod.fst).eraseDups = (others.map Prod.fst).eraseDups)
    (fields_eq : ∀ type, fieldsOf type entries = fieldsOf type others) (table : FieldTable α) :
    entries.foldl addNew table = others.foldl addNew table := by
  apply eq_of_lookup
  · rw [types_foldl types_addNew, types_foldl types_addNew, eraseDups_append_congr rfl types_eq]
  · intro type
    rw [lookup_foldl_addNew, lookup_foldl_addNew, fields_eq]

/-- Merging with the table of some fields is adding those of them that are new, in their order. -/
theorem merge_pushAll_empty (table : FieldTable α) (entries : List (ResourceType × α)) :
    table.merge ((empty : FieldTable α).pushAll entries) = entries.foldl addNew table := by
  apply foldl_addNew_congr
  · rw [types_entries, types_pushAll_empty]
  · intro type
    rw [fieldsOf_entries, ofType_pushAll]
    rfl

/-- Fields whose names are new go behind the ones that are there, the first one of each name. -/
private theorem foldl_addFirst_append (kept added fields : List α) :
    fields.foldl addFirst (kept ++ added) =
      kept ++ (fields.filter fun field => !kept.any fun other =>
        ResourceField.name other == ResourceField.name field).foldl addFirst added := by
  induction fields generalizing added with
  | nil => rfl
  | cons field rest ih =>
    cases known : kept.any fun other => ResourceField.name other == ResourceField.name field with
    | true =>
      have same : addFirst (kept ++ added) field = kept ++ added := by
        rw [addFirst, List.any_append, known, Bool.true_or, if_pos rfl]
      rw [List.foldl_cons, same, ih, List.filter_cons_of_neg (by simp [known])]
    | false =>
      have new : addFirst (kept ++ added) field = kept ++ addFirst added field := by
        rw [addFirst, addFirst, List.any_append, known, Bool.false_or]
        split
        · rfl
        · rw [List.append_assoc]
      rw [List.foldl_cons, new, ih, List.filter_cons_of_pos (by simp [known]), List.foldl_cons]

private theorem any_foldl_addFirst (kept fields : List α) (name : String) :
    (fields.foldl addFirst kept).any (fun field => ResourceField.name field == name) =
      (kept ++ fields).any fun field => ResourceField.name field == name := by
  induction fields generalizing kept with
  | nil => rw [List.append_nil]; rfl
  | cons field rest ih =>
    rw [List.foldl_cons, ih, addFirst]
    split
    · rename_i known
      simp only [List.any_append, List.any_cons]
      cases named : ResourceField.name field == name with
      | false => rfl
      | true => rw [← beq_iff_eq.mp named, known]; rfl
    · rw [List.append_assoc]
      rfl

private theorem foldl_addFirst_addFirst (kept fields : List α) (field : α) :
    (addFirst fields field).foldl addFirst kept = addFirst (fields.foldl addFirst kept) field := by
  cases known : fields.any fun other => ResourceField.name other == ResourceField.name field with
  | true =>
    have later := any_foldl_addFirst kept fields (ResourceField.name field)
    rw [List.any_append, known, Bool.or_true] at later
    rw [addFirst, known, if_pos rfl, addFirst, later, if_pos rfl]
  | false =>
    rw [addFirst, known, if_neg Bool.false_ne_true, List.foldl_append]
    rfl

private theorem foldl_addFirst_foldl (kept fields others : List α) :
    (others.foldl addFirst fields).foldl addFirst kept =
      others.foldl addFirst (fields.foldl addFirst kept) := by
  induction others generalizing fields with
  | nil => rfl
  | cons other rest ih => rw [List.foldl_cons, ih, foldl_addFirst_addFirst, List.foldl_cons]

/-- A merged table has the fields of the first table, and behind them the first field of each name
that the first table lacks. -/
theorem ofType_merge_eq (table other : FieldTable α) (type : ResourceType) :
    (table.merge other).ofType type =
      table.ofType type ++ firsts ((other.ofType type).filter fun field =>
        !table.contains type (ResourceField.name field)) := by
  have appended := foldl_addFirst_append (table.ofType type) [] (other.ofType type)
  rw [List.append_nil] at appended
  simp only [contains_eq_any]
  rw [ofType_merge, appended]
  rfl

theorem types_merge (table other : FieldTable α) :
    (table.merge other).types = (table.types ++ other.types).eraseDups := by
  rw [merge, types_foldl types_addNew]
  refine eraseDups_append_congr rfl ?_
  rw [types_entries, eraseDups_of_nodup other.nodup_types]

theorem toList_merge_assoc (first second third : FieldTable α) :
    ((first.merge second).merge third).toList = (first.merge (second.merge third)).toList := by
  have types_eq : ((first.merge second).merge third).types =
      (first.merge (second.merge third)).types := by
    have whole := eraseDups_of_nodup (nodup_eraseDups (first.types ++ second.types))
    have rest := eraseDups_of_nodup (nodup_eraseDups (second.types ++ third.types))
    rw [types_merge, types_merge, types_merge, types_merge, eraseDups_append_congr whole rfl,
      eraseDups_append_congr rfl rest, List.append_assoc]
  rw [toList_eq, toList_eq, types_eq]
  apply List.map_congr_left
  intro type _
  simp only [ofType_merge, foldl_addFirst_foldl]

/-- Merging a table into itself changes nothing. -/
theorem merge_self (table : FieldTable α) : table.merge table = table := by
  have unchanged : ∀ entries : List (ResourceType × α), entries ⊆ table.entries →
      entries.foldl addNew table = table := by
    intro entries
    induction entries with
    | nil => exact fun _ => rfl
    | cons entry rest ih =>
      intro known
      rw [List.cons_subset] at known
      rw [List.foldl_cons, addNew, if_pos (contains_of_mem_entries known.1), ih known.2]
  exact unchanged table.entries fun _ member => member

/-- Whether a table has the first of the declared fields of each type and name: the types are in the
order in which they come first, the names of each type too, and each field is the first one that is
declared for its type and name. -/
structure FirstWins (declared : List (ResourceType × α)) (table : FieldTable α) : Prop where
  types : table.toList.map Prod.fst = (declared.map Prod.fst).eraseDups
  names : ∀ row ∈ table.toList, row.2.map ResourceField.name =
    ((fieldsOf row.1 declared).map ResourceField.name).eraseDups
  values : ∀ row ∈ table.toList, ∀ field ∈ row.2,
    (declared.find? fun entry =>
        entry.1 == row.1 && ResourceField.name entry.2 == ResourceField.name field) =
      some (row.1, field)

/-- Adding the declared fields that are new keeps the first of each type and name. -/
theorem firstWins_foldl_addNew (declared : List (ResourceType × α)) :
    (declared.foldl addNew empty).FirstWins declared := by
  have types_eq : (declared.foldl addNew empty).types = (declared.map Prod.fst).eraseDups :=
    types_foldl types_addNew empty declared
  have fields_eq : ∀ row ∈ (declared.foldl addNew empty).toList,
      row.2 = firsts (fieldsOf row.1 declared) := by
    rw [toList_eq, List.forall_mem_map]
    exact fun type _ => ofType_foldl_addNew empty declared type
  constructor
  · rw [toList_eq, List.map_map]
    exact (List.map_id' _).trans types_eq
  · intro row member
    rw [fields_eq row member, map_name_firsts]
  · intro row member field inside
    rw [fields_eq row member] at inside
    have first := find?_of_mem_firsts inside
    rw [find?_fieldsOf, Option.map_eq_some_iff] at first
    obtain ⟨entry, found, same⟩ := first
    have typed := List.find?_some found
    rw [Bool.and_eq_true, beq_iff_eq] at typed
    rw [found, ← typed.1, ← same]

/-- Whether fields can be added to a table one after another, since none has the type and the name
of one that is there or comes before it. -/
structure Fresh (table : FieldTable α) (entries : List (ResourceType × α)) : Prop where
  nodup : (entries.map fun entry => (entry.1, ResourceField.name entry.2)).Nodup
  absent : ∀ entry ∈ entries, table.contains entry.1 (ResourceField.name entry.2) = false

theorem fresh_cons {table : FieldTable α} {entry : ResourceType × α}
    {rest : List (ResourceType × α)} :
    table.Fresh (entry :: rest) ↔
      table.contains entry.1 (ResourceField.name entry.2) = false ∧
        (table.push entry.1 entry.2).Fresh rest := by
  have known : ∀ other : ResourceType × α,
      (table.push entry.1 entry.2).contains other.1 (ResourceField.name other.2) = false ↔
        (entry.1, ResourceField.name entry.2) ≠ (other.1, ResourceField.name other.2) ∧
          table.contains other.1 (ResourceField.name other.2) = false := by
    intro other
    rw [← Bool.not_eq_true, contains_push, not_or, Bool.not_eq_true]
  constructor
  · rintro ⟨nodup, absent⟩
    rw [List.map_cons, List.nodup_cons] at nodup
    rw [List.forall_mem_cons] at absent
    refine ⟨absent.1, nodup.2, fun other member => (known other).mpr ⟨?_, absent.2 other member⟩⟩
    exact fun same => nodup.1 (List.mem_map.mpr ⟨other, member, same.symm⟩)
  · rintro ⟨first, nodup, absent⟩
    refine ⟨?_, List.forall_mem_cons.mpr ⟨first, fun other member => ?_⟩⟩
    · rw [List.map_cons, List.nodup_cons]
      refine ⟨fun member => ?_, nodup⟩
      obtain ⟨other, inside, same⟩ := List.mem_map.mp member
      exact ((known other).mp (absent other inside)).1 same.symm
    · exact ((known other).mp (absent other member)).2

/-- Fresh fields are all new. -/
theorem Fresh.foldl_addNew {table : FieldTable α} {entries : List (ResourceType × α)}
    (fresh : table.Fresh entries) : entries.foldl addNew table = table.pushAll entries := by
  induction entries generalizing table with
  | nil => rfl
  | cons entry rest ih =>
    obtain ⟨absent, later⟩ := fresh_cons.mp fresh
    have first : table.addNew entry = table.push entry.1 entry.2 := by
      rw [addNew, absent]
      rfl
    rw [List.foldl_cons, first, ih later, pushAll_cons]

end ResourceClasses.FieldTable
