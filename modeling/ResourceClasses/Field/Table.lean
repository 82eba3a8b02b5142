import ResourceClasses.Field.Group
import ResourceClasses.Total

/-!
Field tables: the fields of a package by resource type. Types keep the order in which they first
got a field, and the fields of a type keep the order in which they were added. Main statements:
`get?_push`, what adding a field changes, and `contains_iff`, which names a table has.
-/

set_option autoImplicit false

namespace ResourceClasses

variable {α : Type} [ResourceField α]

/-- The fields of a package by resource type. -/
structure FieldTable (α : Type) [ResourceField α] where
  groups : List (ResourceType × FieldGroup α)
  nodup : (groups.map Prod.fst).Nodup

namespace FieldTable

def empty : FieldTable α :=
  ⟨[], by simp⟩

/-- The table with one more field, behind those of its type. -/
def push (table : FieldTable α) (type : ResourceType) (field : α) : FieldTable α :=
  let ⟨groups, nodup⟩ := table
  ⟨addToGroups type field groups, nodup_addToGroups type field groups nodup⟩

def get? (table : FieldTable α) (type : ResourceType) : Option (List α) :=
  (table.groups.lookup type).map fun group => group.fields.toList

def contains (table : FieldTable α) (type : ResourceType) (name : String) : Bool :=
  match table.groups.lookup type with
  | some group => group.names.contains name
  | none => false

def toList (table : FieldTable α) : List (ResourceType × List α) :=
  table.groups.map fun (type, group) => (type, group.fields.toList)

/-- Each field with its type, type by type. -/
def entries (table : FieldTable α) : List (ResourceType × α) :=
  table.toList.flatMap fun (type, fields) => fields.map fun field => (type, field)

def size (table : FieldTable α) : Nat :=
  total (table.groups.map fun (_, group) => group.fields.size)

def isEmpty (table : FieldTable α) : Bool :=
  table.groups.isEmpty

/-- The fields that another table has fields of the same types and names for. -/
def filter (table keep : FieldTable α) : FieldTable α :=
  (table.entries.filter fun (type, field) => keep.contains type (ResourceField.name field)).foldl
    (fun kept (type, field) => kept.push type field) empty

/-- Adds a field, unless the table has one of the same type and name. -/
def addNew (table : FieldTable α) (entry : ResourceType × α) : FieldTable α :=
  if table.contains entry.1 (ResourceField.name entry.2) then table
  else table.push entry.1 entry.2

/-- Adds the fields of another table that this one has no fields of the same types and names for. -/
def merge (table other : FieldTable α) : FieldTable α :=
  other.entries.foldl addNew table

@[simp]
theorem get?_empty (type : ResourceType) : (empty : FieldTable α).get? type = none := rfl

/-- A field goes behind those of its type, and the other types keep their fields. -/
theorem get?_push (table : FieldTable α) (type other : ResourceType) (field : α) :
    (table.push type field).get? other =
      if other = type then some ((table.get? type).getD [] ++ [field]) else table.get? other := by
  obtain ⟨groups, nodup⟩ := table
  simp only [push, get?, lookup_addToGroups]
  split
  · cases groups.lookup type <;> simp [FieldGroup.push, FieldGroup.singleton]
  · rfl

theorem contains_iff (table : FieldTable α) (type : ResourceType) (name : String) :
    table.contains type name = true ↔
      ∃ field ∈ (table.get? type).getD [], ResourceField.name field = name := by
  simp only [contains, get?]
  cases table.groups.lookup type with
  | none => simp
  | some group => simp [Std.HashSet.contains_iff_mem, group.mem_names]

end FieldTable

end ResourceClasses
