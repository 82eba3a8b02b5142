import ResourceClasses.Proofs.Field.Table

/-!
Filtered field tables: what is left is selected type by type, in the same order, and types of which
nothing is left are dropped. Main statements: `toList_filter`, the rows of a filtered table, and
`filter_comm`, filters in either order.
-/

set_option autoImplicit false

namespace ResourceClasses

variable {α : Type} [ResourceField α]

namespace FieldTable

/-- Whether a table has a field of the type and the name of a given one. -/
def keeps (keep : FieldTable α) (type : ResourceType) (field : α) : Bool :=
  keep.contains type (ResourceField.name field)

private theorem filter_eq_pushAll (table keep : FieldTable α) :
    table.filter keep =
      empty.pushAll (table.entries.filter fun entry => keep.keeps entry.1 entry.2) := rfl

/-- Pushing the fields of rows of different types gives these rows, without the empty ones. -/
theorem toList_pushAll_entriesOf {rows : List (ResourceType × List α)}
    (nodup : (rows.map Prod.fst).Nodup) :
    ((empty : FieldTable α).pushAll (entriesOf rows)).toList =
      rows.filter fun row => !row.2.isEmpty := by
  rw [toList_pushAll_empty, eraseDups_types_entriesOf nodup, List.map_map]
  refine (List.map_congr_left ?_).trans (List.map_id _)
  intro row member
  exact Prod.ext rfl (fieldsOf_entriesOf nodup (List.mem_of_mem_filter member))

/-- The rows of a table with the fields that another table keeps. -/
def selectedRows (table keep : FieldTable α) : List (ResourceType × List α) :=
  table.toList.map fun row => (row.1, row.2.filter (keep.keeps row.1))

private theorem entriesOf_selectedRows (table keep : FieldTable α) :
    entriesOf (table.selectedRows keep) =
      table.entries.filter fun entry => keep.keeps entry.1 entry.2 := by
  change entriesOf (table.toList.map _) = (entriesOf table.toList).filter _
  induction table.toList with
  | nil => rfl
  | cons row rest ih =>
    rw [List.map_cons, entriesOf_cons, entriesOf_cons, List.filter_append, List.filter_map, ih]
    rfl

/-- A filtered table has the rows of the table with the fields that are kept, as far as there are
any. -/
theorem toList_filter (table keep : FieldTable α) :
    (table.filter keep).toList = (table.selectedRows keep).filter fun row => !row.2.isEmpty := by
  have nodup : ((table.selectedRows keep).map Prod.fst).Nodup := by
    rw [selectedRows, List.map_map]
    exact table.nodup_types_toList
  rw [filter_eq_pushAll, ← entriesOf_selectedRows, toList_pushAll_entriesOf nodup]

theorem types_filter (table keep : FieldTable α) :
    (table.filter keep).types =
      table.types.filter fun type => !((table.ofType type).filter (keep.keeps type)).isEmpty := by
  have types_eq : ∀ table : FieldTable α, table.types = table.toList.map Prod.fst := by
    intro table
    rw [types, toList, List.map_map]
    rfl
  rw [types_eq, toList_filter, selectedRows, toList_eq, List.map_map, List.filter_map, List.map_map]
  exact List.map_id _

theorem ofType_filter (table keep : FieldTable α) (type : ResourceType) :
    (table.filter keep).ofType type = (table.ofType type).filter (keep.keeps type) := by
  rw [filter_eq_pushAll, ofType_pushAll, fieldsOf_filter, fieldsOf_entries]
  rfl

theorem entries_filter (table keep : FieldTable α) :
    (table.filter keep).entries =
      table.entries.filter fun entry => keep.keeps entry.1 entry.2 := by
  change entriesOf (table.filter keep).toList = _
  rw [toList_filter, entriesOf_filter_nonempty, entriesOf_selectedRows]

/-- It does not matter in which order a table is filtered. -/
theorem filter_comm (table first second : FieldTable α) :
    (table.filter first).filter second = (table.filter second).filter first := by
  rw [filter_eq_pushAll, filter_eq_pushAll (table.filter second), entries_filter, entries_filter,
    List.filter_comm]

/-- A table that is filtered with itself keeps what it has. -/
theorem toList_filter_self (table : FieldTable α) : (table.filter table).toList = table.toList := by
  have all_kept : (table.entries.filter fun entry => table.keeps entry.1 entry.2) =
      table.entries := List.filter_eq_self.mpr fun _ => contains_of_mem_entries
  rw [filter_eq_pushAll, all_kept, toList_pushAll_empty, types_entries, toList_eq]
  exact List.map_congr_left fun type _ => congrArg (Prod.mk type) (table.fieldsOf_entries type)

end FieldTable

end ResourceClasses
