import Mathlib.Data.List.Induction
import Mathlib.Data.List.Nodup
import ResourceClasses.Field.Table

/-!
Laws of field tables: the types of a table are in the order in which they came first, and a table
that is merged from others keeps the first field of each name of a type, in the order in which the
names were first seen.
-/

set_option autoImplicit false

namespace ResourceClasses

section

variable {β : Type} [DecidableEq β]

theorem eraseDups_concat (items : List β) (item : β) :
    (items ++ [item]).eraseDups =
      if item ∈ items then items.eraseDups else items.eraseDups ++ [item] := by
  rw [List.eraseDups_append]
  by_cases known : item ∈ items
  · simp [List.removeAll, known]
  · simp [List.removeAll, known, List.eraseDups_cons]

theorem eraseDups_of_nodup {items : List β} (nodup : items.Nodup) : items.eraseDups = items := by
  induction items using List.reverseRecOn with
  | nil => rfl
  | append_singleton items item ih =>
    have absent : item ∉ items := by
      intro member
      exact (List.nodup_append.mp nodup).2.2 item member item (List.mem_singleton_self item) rfl
    rw [eraseDups_concat, if_neg absent, ih (List.nodup_append.mp nodup).1]

theorem nodup_eraseDups (items : List β) : items.eraseDups.Nodup := by
  induction items using List.reverseRecOn with
  | nil => exact List.nodup_nil
  | append_singleton items item ih =>
    rw [eraseDups_concat]
    split
    · exact ih
    · rename_i absent
      refine List.nodup_append.mpr ⟨ih, List.nodup_singleton item, ?_⟩
      rintro other member _ last rfl
      rw [List.mem_singleton.mp last, List.mem_eraseDups] at member
      exact absent member

theorem eraseDups_filter (p : β → Bool) (items : List β) :
    (items.filter p).eraseDups = items.eraseDups.filter p := by
  induction items using List.reverseRecOn with
  | nil => rfl
  | append_singleton items item ih =>
    rw [eraseDups_concat, List.filter_append]
    cases kept : p item with
    | true =>
      rw [List.filter_cons_of_pos kept, List.filter_nil, eraseDups_concat, ih]
      by_cases known : item ∈ items
      · rw [if_pos known, if_pos (List.mem_filter.mpr ⟨known, kept⟩)]
      · rw [if_neg known, if_neg fun member => known (List.mem_of_mem_filter member),
          List.filter_append, List.filter_cons_of_pos kept, List.filter_nil]
    | false =>
      have dropped : [item].filter p = [] := by rw [List.filter_cons_of_neg (by simp [kept])]; rfl
      rw [dropped, List.append_nil, ih]
      split
      · rfl
      · rw [List.filter_append, dropped, List.append_nil]

/-- What comes first in two lists together is known from what comes first in each. -/
theorem eraseDups_append_congr {first first' second second' : List β}
    (same : first.eraseDups = first'.eraseDups) (same' : second.eraseDups = second'.eraseDups) :
    (first ++ second).eraseDups = (first' ++ second').eraseDups := by
  have known : ∀ item, item ∈ first ↔ item ∈ first' := by
    intro item
    rw [← List.mem_eraseDups, same, List.mem_eraseDups]
  have missing : (fun item => !first.elem item) = fun item => !first'.elem item := by
    funext item
    rw [Bool.eq_iff_iff]
    simp [known]
  rw [List.eraseDups_append, List.eraseDups_append, List.removeAll, List.removeAll,
    eraseDups_filter, eraseDups_filter, same, same', missing]

end

section

variable {β : Type}

/-- The fields of a type among some fields with their types. -/
def fieldsOf (type : ResourceType) (entries : List (ResourceType × β)) : List β :=
  (entries.filter fun entry => entry.1 = type).map Prod.snd

theorem fieldsOf_cons (type : ResourceType) (entry : ResourceType × β)
    (rest : List (ResourceType × β)) :
    fieldsOf type (entry :: rest) =
      if entry.1 = type then entry.2 :: fieldsOf type rest else fieldsOf type rest := by
  unfold fieldsOf
  by_cases same : entry.1 = type <;> simp [same]

theorem fieldsOf_append (type : ResourceType) (first second : List (ResourceType × β)) :
    fieldsOf type (first ++ second) = fieldsOf type first ++ fieldsOf type second := by
  simp [fieldsOf]

theorem find?_fieldsOf (type : ResourceType) (p : β → Bool) (entries : List (ResourceType × β)) :
    (fieldsOf type entries).find? p =
      (entries.find? fun entry => entry.1 == type && p entry.2).map Prod.snd := by
  induction entries with
  | nil => rfl
  | cons entry rest ih =>
    rw [fieldsOf_cons, List.find?_cons]
    by_cases same : entry.1 = type
    · rw [if_pos same, List.find?_cons, beq_iff_eq.mpr same, Bool.true_and]
      cases p entry.2 with
      | true => rfl
      | false => exact ih
    · rw [if_neg same, beq_eq_false_iff_ne.mpr same, Bool.false_and]
      exact ih

private theorem fieldsOf_map (type other : ResourceType) (fields : List β) :
    fieldsOf type (fields.map fun field => (other, field)) =
      if other = type then fields else [] := by
  induction fields with
  | nil => simp [fieldsOf]
  | cons field rest ih =>
    rw [List.map_cons, fieldsOf_cons, ih]
    split <;> rfl

theorem fieldsOf_eq_nil_iff {type : ResourceType} {entries : List (ResourceType × β)} :
    fieldsOf type entries = [] ↔ type ∉ entries.map Prod.fst := by
  rw [fieldsOf, List.map_eq_nil_iff, List.filter_eq_nil_iff, List.mem_map]
  simp only [decide_eq_true_eq, not_exists, not_and]

/-- The fields of different types are all the fields, if there are no others. -/
theorem total_fieldsOf {types : List ResourceType} (once : types.Nodup)
    {pairs : List (ResourceType × β)} (typed : ∀ pair ∈ pairs, pair.1 ∈ types) :
    total (types.map fun type => (fieldsOf type pairs).length) = pairs.length := by
  induction types generalizing pairs with
  | nil =>
    cases pairs with
    | nil => rfl
    | cons pair rest => exact absurd (typed pair List.mem_cons_self) List.not_mem_nil
  | cons type others ih =>
    obtain ⟨absent, once⟩ := List.nodup_cons.mp once
    have rest_typed : ∀ pair ∈ pairs.filter (fun pair => !decide (pair.1 = type)),
        pair.1 ∈ others := by
      intro pair member
      obtain ⟨inside, different⟩ := List.mem_filter.mp member
      exact (List.mem_cons.mp (typed pair inside)).resolve_left (by simpa using different)
    have rest_same : ∀ other ∈ others,
        fieldsOf other (pairs.filter fun pair => !decide (pair.1 = type)) =
          fieldsOf other pairs := by
      intro other member
      rw [fieldsOf, List.filter_filter, fieldsOf]
      congr 1
      apply List.filter_congr
      intro pair _
      have different : other ≠ type := fun same => absent (same ▸ member)
      by_cases same : pair.1 = other <;> simp [same, different]
    have rest := ih once rest_typed
    have lengths := fun other member => congrArg List.length (rest_same other member)
    rw [List.map_congr_left lengths] at rest
    rw [List.map_cons, total_cons, rest, fieldsOf, List.length_map]
    exact (List.length_eq_length_filter_add _).symm

theorem fieldsOf_filter (type : ResourceType) (p : ResourceType × β → Bool)
    (entries : List (ResourceType × β)) :
    fieldsOf type (entries.filter p) =
      (fieldsOf type entries).filter fun field => p (type, field) := by
  induction entries with
  | nil => rfl
  | cons entry rest ih =>
    obtain ⟨other, field⟩ := entry
    rw [fieldsOf_cons]
    by_cases same : other = type
    · subst same
      rw [if_pos rfl, List.filter_cons, List.filter_cons, ← ih]
      split
      · rw [fieldsOf_cons, if_pos rfl]
      · rfl
    · rw [if_neg same, List.filter_cons, ← ih]
      split
      · rw [fieldsOf_cons, if_neg same]
      · rfl

/-- Each field of some rows with the type of its row, row by row. -/
def entriesOf (rows : List (ResourceType × List β)) : List (ResourceType × β) :=
  rows.flatMap fun (type, fields) => fields.map fun field => (type, field)

theorem entriesOf_cons (row : ResourceType × List β) (rest : List (ResourceType × List β)) :
    entriesOf (row :: rest) = (row.2.map fun field => (row.1, field)) ++ entriesOf rest := rfl

theorem entriesOf_filter_nonempty (rows : List (ResourceType × List β)) :
    entriesOf (rows.filter fun row => !row.2.isEmpty) = entriesOf rows := by
  induction rows with
  | nil => rfl
  | cons row rest ih =>
    obtain ⟨type, fields⟩ := row
    cases fields with
    | nil => exact ih
    | cons field others => exact congrArg (_ ++ ·) ih

private theorem mem_types_of_mem_entriesOf {rows : List (ResourceType × List β)}
    {type : ResourceType} (member : type ∈ (entriesOf rows).map Prod.fst) :
    type ∈ rows.map Prod.fst := by
  obtain ⟨_, inside, rfl⟩ := List.mem_map.mp member
  obtain ⟨row, listed, found⟩ := List.mem_flatMap.mp inside
  obtain ⟨field, -, rfl⟩ := List.mem_map.mp found
  exact List.mem_map_of_mem listed

/-- Rows of different types are told by their fields. -/
theorem fieldsOf_entriesOf {rows : List (ResourceType × List β)}
    (nodup : (rows.map Prod.fst).Nodup) {row : ResourceType × List β} (member : row ∈ rows) :
    fieldsOf row.1 (entriesOf rows) = row.2 := by
  induction rows with
  | nil => contradiction
  | cons head rest ih =>
    rw [List.map_cons, List.nodup_cons] at nodup
    rw [entriesOf_cons, fieldsOf_append, fieldsOf_map]
    rcases List.mem_cons.mp member with rfl | later
    · rw [if_pos rfl, fieldsOf_eq_nil_iff.mpr (mt mem_types_of_mem_entriesOf nodup.1),
        List.append_nil]
    · rw [if_neg, List.nil_append, ih nodup.2 later]
      intro same
      exact nodup.1 (same ▸ List.mem_map_of_mem later)

private theorem eraseDups_replicate (type : ResourceType) (n : Nat) :
    (List.replicate (n + 1) type).eraseDups = [type] := by
  induction n with
  | zero => rfl
  | succ n ih =>
    rw [List.replicate_succ', eraseDups_concat, ih, if_pos]
    exact List.mem_replicate.mpr ⟨Nat.succ_ne_zero n, rfl⟩

/-- The types of the rows that have fields, in the order of the rows. -/
theorem eraseDups_types_entriesOf {rows : List (ResourceType × List β)}
    (nodup : (rows.map Prod.fst).Nodup) :
    ((entriesOf rows).map Prod.fst).eraseDups =
      (rows.filter fun row => !row.2.isEmpty).map Prod.fst := by
  induction rows with
  | nil => rfl
  | cons row rest ih =>
    obtain ⟨type, fields⟩ := row
    have later := ih (List.nodup_cons.mp nodup).2
    have types : (fields.map fun field => (type, field)).map Prod.fst =
        List.replicate fields.length type := by
      rw [List.map_map]
      exact List.map_const'
    rw [entriesOf_cons, List.map_append, types]
    cases fields with
    | nil => exact later
    | cons field others =>
      have sublist : ((rest.filter fun row => !row.2.isEmpty).map Prod.fst).Sublist
          (rest.map Prod.fst) := List.filter_sublist.map Prod.fst
      have kept := (sublist.cons_cons type).nodup nodup
      rw [← eraseDups_of_nodup (List.nodup_cons.mp kept).2] at later
      have first : (List.replicate (others.length + 1) type).eraseDups = [type].eraseDups :=
        eraseDups_replicate type others.length
      rw [List.length_cons, eraseDups_append_congr first later]
      exact eraseDups_of_nodup kept

end

variable {α : Type} [ResourceField α]

/-- Adds a field behind others, unless one of them has its name. -/
def addFirst (kept : List α) (field : α) : List α :=
  if kept.any fun other => ResourceField.name other == ResourceField.name field then kept
  else kept ++ [field]

/-- The first field of each name, in order. -/
def firsts (fields : List α) : List α :=
  fields.foldl addFirst []

section

variable {kept fields : List α}

private theorem nodup_names_addFirst (field : α)
    (nodup : (kept.map ResourceField.name).Nodup) :
    ((addFirst kept field).map ResourceField.name).Nodup := by
  unfold addFirst
  split
  · exact nodup
  · rename_i fresh
    rw [List.map_append, List.nodup_append]
    refine ⟨nodup, by simp, ?_⟩
    intro name known other same
    rw [List.map_singleton, List.mem_singleton] at same
    rintro rfl
    obtain ⟨found, member, named⟩ := List.mem_map.mp known
    apply fresh
    rw [List.any_eq_true]
    exact ⟨found, member, by rw [named, same, beq_self_eq_true]⟩

private theorem find?_addFirst (field : α) (name : String) :
    (addFirst kept field).find? (fun other => ResourceField.name other == name) =
      (kept ++ [field]).find? fun other => ResourceField.name other == name := by
  unfold addFirst
  split
  · rename_i known
    obtain ⟨found, member, same⟩ := List.any_eq_true.mp known
    rw [List.find?_append]
    cases first : kept.find? fun other => ResourceField.name other == name with
    | some other => rfl
    | none =>
      have unknown := List.find?_eq_none.mp first found member
      rw [beq_iff_eq.mp same] at unknown
      simp [unknown]
  · rfl

private theorem foldl_addFirst (nodup : (kept.map ResourceField.name).Nodup) :
    ((fields.foldl addFirst kept).map ResourceField.name).Nodup ∧
      ∀ name, (fields.foldl addFirst kept).find? (fun other => ResourceField.name other == name) =
        (kept ++ fields).find? fun other => ResourceField.name other == name := by
  -- A field that is dropped has a namesake before it, so it is never the first one found.
  induction fields generalizing kept with
  | nil => exact ⟨nodup, fun name => by rw [List.append_nil]; rfl⟩
  | cons field rest ih =>
    obtain ⟨rest_nodup, rest_found⟩ := ih (nodup_names_addFirst field nodup)
    refine ⟨rest_nodup, ?_⟩
    intro name
    rw [List.foldl_cons, rest_found, List.find?_append, find?_addFirst, ← List.find?_append,
      List.append_assoc]
    rfl

/-- The first fields have all names, in the order in which they come first. -/
theorem map_name_firsts (fields : List α) :
    (firsts fields).map ResourceField.name = (fields.map ResourceField.name).eraseDups := by
  induction fields using List.reverseRecOn with
  | nil => rfl
  | append_singleton fields field ih =>
    have last : firsts (fields ++ [field]) = addFirst (firsts fields) field := List.foldl_append
    have known : (firsts fields).any (fun other =>
        ResourceField.name other == ResourceField.name field) = true ↔
          ResourceField.name field ∈ fields.map ResourceField.name := by
      rw [← List.mem_eraseDups, ← ih, List.mem_map, List.any_eq_true]
      simp only [beq_iff_eq]
    rw [last, addFirst, List.map_append, List.map_singleton, eraseDups_concat, ← ih]
    by_cases member : ResourceField.name field ∈ fields.map ResourceField.name
    · rw [if_pos member, if_pos (known.mpr member)]
    · rw [if_neg member, if_neg (mt known.mp member), List.map_append, List.map_singleton]

/-- No two of the first fields share a name. -/
theorem nodup_names_firsts (fields : List α) :
    ((firsts fields).map ResourceField.name).Nodup := by
  have none_kept : (([] : List α).map ResourceField.name).Nodup := List.nodup_nil
  exact (foldl_addFirst none_kept).1

/-- The field of a name among the first fields is the first of that name. -/
theorem find?_firsts (fields : List α) (name : String) :
    (firsts fields).find? (fun other => ResourceField.name other == name) =
      fields.find? fun other => ResourceField.name other == name := by
  have none_kept : (([] : List α).map ResourceField.name).Nodup := List.nodup_nil
  exact (foldl_addFirst none_kept).2 name

theorem find?_of_mem_firsts {field : α} (member : field ∈ firsts fields) :
    (fields.find? fun other => ResourceField.name other == ResourceField.name field) =
      some field := by
  rw [← find?_firsts]
  cases found : (firsts fields).find? fun other =>
      ResourceField.name other == ResourceField.name field with
  | none =>
    have never := List.find?_eq_none.mp found field member
    simp at never
  | some other =>
    have known := List.mem_of_find?_eq_some found
    have named := List.find?_some found
    rw [beq_iff_eq] at named
    rw [List.inj_on_of_nodup_map (nodup_names_firsts fields) known member named]

end

private theorem FieldGroup.isEmpty_toList (group : FieldGroup α) :
    group.fields.toList.isEmpty = false := by
  rw [List.isEmpty_eq_false_iff, ← List.length_pos_iff, Array.length_toList]
  exact group.nonempty

namespace FieldTable

def ofType (table : FieldTable α) (type : ResourceType) : List α :=
  (table.get? type).getD []

theorem lookup_of_mem {groups : List (ResourceType × FieldGroup α)}
    {type : ResourceType} {group : FieldGroup α} (nodup : (groups.map Prod.fst).Nodup)
    (member : (type, group) ∈ groups) : groups.lookup type = some group := by
  induction groups with
  | nil => contradiction
  | cons head rest ih =>
    obtain ⟨first, other⟩ := head
    rw [List.map_cons, List.nodup_cons] at nodup
    rw [lookup_group_cons]
    rcases List.mem_cons.mp member with same | later
    · obtain ⟨rfl, rfl⟩ := Prod.mk.inj same
      rw [if_pos rfl]
    · rw [if_neg, ih nodup.2 later]
      rintro rfl
      exact nodup.1 (List.mem_map.mpr ⟨_, later, rfl⟩)

private theorem ofType_of_mem {table : FieldTable α} {type : ResourceType} {group : FieldGroup α}
    (member : (type, group) ∈ table.groups) : table.ofType type = group.fields.toList := by
  rw [ofType, get?, lookup_of_mem table.nodup member]
  rfl

theorem get?_eq (table : FieldTable α) (type : ResourceType) :
    table.get? type = if (table.ofType type).isEmpty then none else some (table.ofType type) := by
  rw [ofType, get?]
  cases table.groups.lookup type with
  | none => rfl
  | some group =>
    rw [Option.map_some, Option.getD_some, group.isEmpty_toList]
    rfl

theorem contains_eq_any (table : FieldTable α) (type : ResourceType) (name : String) :
    table.contains type name =
      (table.ofType type).any fun field => ResourceField.name field == name := by
  rw [Bool.eq_iff_iff, contains_iff, List.any_eq_true]
  simp only [beq_iff_eq, ofType]

theorem ofType_push (table : FieldTable α) (type other : ResourceType) (field : α) :
    (table.push type field).ofType other =
      if other = type then table.ofType other ++ [field] else table.ofType other := by
  rw [ofType, get?_push]
  split
  · rename_i same
    rw [same]
    rfl
  · rfl

private theorem ofType_addNew (table : FieldTable α) (entry : ResourceType × α)
    (type : ResourceType) :
    (table.addNew entry).ofType type =
      if entry.1 = type then addFirst (table.ofType type) entry.2 else table.ofType type := by
  obtain ⟨other, field⟩ := entry
  unfold addNew
  split
  · rename_i present
    split
    · rename_i same
      rw [contains_eq_any, same] at present
      rw [addFirst, if_pos present]
    · rfl
  · rename_i absent
    rw [ofType_push]
    by_cases same : other = type
    · subst same
      rw [contains_eq_any] at absent
      rw [if_pos rfl, if_pos rfl, addFirst, if_neg absent]
    · rw [if_neg same, if_neg (Ne.symm same)]

theorem ofType_foldl_addNew (table : FieldTable α) (entries : List (ResourceType × α))
    (type : ResourceType) :
    (entries.foldl addNew table).ofType type =
      (fieldsOf type entries).foldl addFirst (table.ofType type) := by
  induction entries generalizing table with
  | nil => rfl
  | cons entry rest ih =>
    rw [List.foldl_cons, ih, ofType_addNew, fieldsOf_cons]
    split <;> rfl

theorem nodup_types_toList (table : FieldTable α) : (table.toList.map Prod.fst).Nodup := by
  rw [toList, List.map_map]
  exact table.nodup

theorem fieldsOf_entries (table : FieldTable α) (type : ResourceType) :
    fieldsOf type table.entries = table.ofType type := by
  by_cases known : type ∈ table.groups.map Prod.fst
  · obtain ⟨⟨_, group⟩, member, rfl⟩ := List.mem_map.mp known
    rw [ofType_of_mem member]
    exact fieldsOf_entriesOf table.nodup_types_toList (List.mem_map_of_mem member)
  · have absent : table.groups.lookup type = none := by
      rw [List.lookup_eq_none_iff]
      intro other member
      rw [bne_iff_ne]
      rintro rfl
      exact known (List.mem_map_of_mem member)
    have unlisted : type ∉ table.toList.map Prod.fst := by
      rw [toList, List.map_map]
      exact known
    rw [ofType, get?, absent]
    exact fieldsOf_eq_nil_iff.mpr (mt mem_types_of_mem_entriesOf unlisted)

theorem contains_of_mem_entries {table : FieldTable α} {entry : ResourceType × α}
    (member : entry ∈ table.entries) :
    table.contains entry.1 (ResourceField.name entry.2) = true := by
  have inside : entry.2 ∈ fieldsOf entry.1 table.entries :=
    List.mem_map_of_mem (List.mem_filter.mpr ⟨member, decide_eq_true rfl⟩)
  rw [fieldsOf_entries] at inside
  exact (contains_iff table _ _).mpr ⟨entry.2, inside, rfl⟩

/-- Merging goes on with the first fields of each name. -/
theorem ofType_merge (table other : FieldTable α) (type : ResourceType) :
    (table.merge other).ofType type = (other.ofType type).foldl addFirst (table.ofType type) := by
  rw [merge, ofType_foldl_addNew, fieldsOf_entries]

/-- Tables that are merged in order give the first field of each name. -/
theorem ofType_foldl_merge (tables : List (FieldTable α)) (type : ResourceType) :
    (tables.foldl merge empty).ofType type =
      firsts (tables.flatMap fun table => table.ofType type) := by
  have from_any : ∀ start : FieldTable α, (tables.foldl merge start).ofType type =
      (tables.flatMap fun table => table.ofType type).foldl addFirst (start.ofType type) := by
    induction tables with
    | nil => exact fun _ => rfl
    | cons table rest ih =>
      intro start
      rw [List.foldl_cons, ih, ofType_merge, List.flatMap_cons, List.foldl_append]
  exact from_any empty

theorem contains_push (table : FieldTable α) (type other : ResourceType) (field : α)
    (name : String) :
    (table.push type field).contains other name = true ↔
      (type, ResourceField.name field) = (other, name) ∨ table.contains other name = true := by
  have fields := ofType_push table type other field
  rw [ofType, ofType] at fields
  rw [contains_iff, contains_iff, fields, Prod.mk.injEq]
  split
  · rename_i same
    simp [same, or_and_right, exists_or, or_comm]
  · rename_i different
    simp [Ne.symm different]

/-- Adds some fields one after another, each behind those of its type. -/
def pushAll (table : FieldTable α) (entries : List (ResourceType × α)) : FieldTable α :=
  entries.foldl (fun table entry => table.push entry.1 entry.2) table

theorem pushAll_cons (table : FieldTable α) (entry : ResourceType × α)
    (rest : List (ResourceType × α)) :
    table.pushAll (entry :: rest) = (table.push entry.1 entry.2).pushAll rest := rfl

theorem ofType_pushAll (table : FieldTable α) (entries : List (ResourceType × α))
    (type : ResourceType) :
    (table.pushAll entries).ofType type = table.ofType type ++ fieldsOf type entries := by
  induction entries generalizing table with
  | nil => exact (List.append_nil _).symm
  | cons entry rest ih =>
    rw [pushAll_cons, ih, ofType_push, fieldsOf_cons]
    by_cases same : entry.1 = type
    · rw [if_pos same, if_pos same.symm, List.append_assoc]
      rfl
    · rw [if_neg same, if_neg (Ne.symm same)]

theorem contains_pushAll (table : FieldTable α) (entries : List (ResourceType × α))
    (type : ResourceType) (name : String) :
    (table.pushAll entries).contains type name = true ↔
      (type, name) ∈ entries.map (fun entry => (entry.1, ResourceField.name entry.2)) ∨
        table.contains type name = true := by
  induction entries generalizing table with
  | nil => simp [pushAll]
  | cons entry rest ih =>
    rw [pushAll_cons, ih, contains_push, List.map_cons, List.mem_cons, or_left_comm, or_assoc]
    simp only [eq_comm]

/-- The types of a table, in the order in which they first got a field. -/
def types (table : FieldTable α) : List ResourceType :=
  table.groups.map Prod.fst

theorem types_push (table : FieldTable α) (type : ResourceType) (field : α) :
    (table.push type field).types =
      if type ∈ table.types then table.types else table.types ++ [type] := by
  obtain ⟨groups, nodup⟩ := table
  change (addToGroups type field groups).map Prod.fst =
    if type ∈ groups.map Prod.fst then groups.map Prod.fst else groups.map Prod.fst ++ [type]
  clear nodup
  induction groups with
  | nil => rfl
  | cons head rest ih =>
    obtain ⟨first, group⟩ := head
    by_cases same : first = type
    · simp [addToGroups, same]
    · rw [addToGroups, if_neg same, List.map_cons, ih, List.map_cons]
      by_cases known : type ∈ rest.map Prod.fst
      · rw [if_pos known, if_pos (List.mem_cons_of_mem _ known)]
      · rw [if_neg known, if_neg]
        · rfl
        · intro member
          rcases List.mem_cons.mp member with rfl | later
          · exact same rfl
          · exact known later

private theorem mem_types_of_contains {table : FieldTable α} {type : ResourceType} {name : String}
    (known : table.contains type name = true) : type ∈ table.types := by
  unfold contains at known
  cases found : table.groups.lookup type with
  | none =>
    rw [found] at known
    contradiction
  | some group =>
    obtain ⟨before, after, split, -⟩ := List.lookup_eq_some_iff.mp found
    rw [types, split]
    simp

theorem nodup_types (table : FieldTable α) : table.types.Nodup :=
  table.nodup

/-- Adding fields one after another adds their types, when adding one field does. -/
theorem types_foldl {step : FieldTable α → ResourceType × α → FieldTable α}
    (one : ∀ table entry, (step table entry).types = (table.types ++ [entry.1]).eraseDups)
    (table : FieldTable α) (entries : List (ResourceType × α)) :
    (entries.foldl step table).types = (table.types ++ entries.map Prod.fst).eraseDups := by
  induction entries generalizing table with
  | nil => rw [List.map_nil, List.append_nil]; exact (eraseDups_of_nodup table.nodup_types).symm
  | cons entry rest ih =>
    have first := eraseDups_of_nodup (nodup_eraseDups (table.types ++ [entry.1]))
    rw [List.foldl_cons, ih, one, eraseDups_append_congr first rfl, List.append_assoc]
    rfl

theorem types_pushAll_empty (entries : List (ResourceType × α)) :
    ((empty : FieldTable α).pushAll entries).types = (entries.map Prod.fst).eraseDups := by
  refine types_foldl (fun table entry => ?_) empty entries
  rw [types_push, eraseDups_concat, eraseDups_of_nodup table.nodup_types]

theorem types_addNew (table : FieldTable α) (entry : ResourceType × α) :
    (table.addNew entry).types = (table.types ++ [entry.1]).eraseDups := by
  rw [eraseDups_concat, eraseDups_of_nodup table.nodup_types]
  unfold addNew
  split
  · rename_i present
    rw [if_pos (mem_types_of_contains present)]
  · rw [types_push]

/-- The fields of a table have its types, in their order. -/
theorem types_entries (table : FieldTable α) :
    (table.entries.map Prod.fst).eraseDups = table.types := by
  have nonempty : ∀ row ∈ table.toList, (!row.2.isEmpty) = true := by
    intro row member
    obtain ⟨⟨type, group⟩, -, rfl⟩ := List.mem_map.mp member
    rw [group.isEmpty_toList]
    rfl
  have rows := eraseDups_types_entriesOf table.nodup_types_toList
  rw [List.filter_eq_self.mpr nonempty, toList, List.map_map] at rows
  exact rows

theorem toList_eq (table : FieldTable α) :
    table.toList = table.types.map fun type => (type, table.ofType type) := by
  rw [types, toList, List.map_map]
  apply List.map_congr_left
  rintro ⟨type, group⟩ member
  exact congrArg (Prod.mk type) (ofType_of_mem member).symm

theorem size_eq (table : FieldTable α) :
    table.size = total (table.types.map fun type => (table.ofType type).length) := by
  rw [types, size, List.map_map]
  congr 1
  apply List.map_congr_left
  rintro ⟨type, group⟩ member
  exact (congrArg List.length (ofType_of_mem member)).symm

/-- Fields that are added to the empty table are listed by type, with the types in the order in
which they come first. -/
theorem toList_pushAll_empty (entries : List (ResourceType × α)) :
    ((empty : FieldTable α).pushAll entries).toList =
      (entries.map Prod.fst).eraseDups.map fun type => (type, fieldsOf type entries) := by
  rw [toList_eq, types_pushAll_empty]
  apply List.map_congr_left
  intro type _
  rw [ofType_pushAll]
  rfl

/-- A table with a type has a field, since each of its groups has one. -/
theorem size_pos {table : FieldTable α} (some_group : table.isEmpty = false) : 0 < table.size := by
  unfold isEmpty at some_group
  unfold size
  cases groups : table.groups with
  | nil =>
    rw [groups] at some_group
    contradiction
  | cons head rest =>
    have nonempty := head.2.nonempty
    rw [List.map_cons, total_cons]
    dsimp only
    omega

theorem mem_toList (table : FieldTable α) (type : ResourceType)
    (some_field : table.ofType type ≠ []) : (type, table.ofType type) ∈ table.toList := by
  unfold ofType get? at *
  cases found : table.groups.lookup type with
  | none => simp [found] at some_field
  | some group =>
    rw [toList, List.mem_map]
    obtain ⟨before, after, split, _⟩ := List.lookup_eq_some_iff.mp found
    refine ⟨(type, group), ?_, by simp⟩
    rw [split]
    simp

/-- The types of a table are those that it has fields of. -/
theorem mem_types_iff {table : FieldTable α} {type : ResourceType} :
    type ∈ table.types ↔ table.ofType type ≠ [] := by
  constructor
  · intro member
    obtain ⟨⟨_, group⟩, inside, rfl⟩ := List.mem_map.mp member
    rw [ofType_of_mem inside, Ne, ← List.isEmpty_iff, group.isEmpty_toList]
    exact Bool.false_ne_true
  · intro some_field
    have listed := table.mem_toList type some_field
    rw [toList_eq] at listed
    obtain ⟨other, member, same⟩ := List.mem_map.mp listed
    rwa [← (Prod.mk.inj same).1]

end FieldTable

end ResourceClasses
