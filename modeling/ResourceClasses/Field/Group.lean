import ResourceClasses.Field.Basic
import ResourceClasses.ResourceType
import Std.Data.HashSet

/-!
Field groups: the fields of one resource type in the order in which they were added, and lists of
groups by type, in the order in which the types first got a field. Main statement:
`lookup_addToGroups`, where a field goes.
-/

set_option autoImplicit false

namespace ResourceClasses

variable {α : Type} [ResourceField α]

/-- The fields of one type, at least one, with the set of their names. -/
structure FieldGroup (α : Type) [ResourceField α] where
  fields : Array α
  names : Std.HashSet String
  nonempty : 0 < fields.size
  mem_names : ∀ name, name ∈ names ↔ ∃ field ∈ fields, ResourceField.name field = name

namespace FieldGroup

def singleton (field : α) : FieldGroup α where
  fields := #[field]
  names := Std.HashSet.emptyWithCapacity.insert (ResourceField.name field)
  nonempty := by simp
  mem_names := by simp

/-- The group with one more field at its end. -/
def push (group : FieldGroup α) (field : α) : FieldGroup α where
  fields := group.fields.push field
  names := group.names.insert (ResourceField.name field)
  nonempty := by simp
  mem_names := by
    intro name
    simp only [Std.HashSet.mem_insert, beq_iff_eq, group.mem_names, Array.mem_push]
    constructor
    · rintro (h | ⟨other, member, h⟩)
      · exact ⟨field, Or.inr rfl, h⟩
      · exact ⟨other, Or.inl member, h⟩
    · rintro ⟨other, member | rfl, h⟩
      · exact Or.inr ⟨other, member, h⟩
      · exact Or.inl h

end FieldGroup

/-- Adds a field to the group of its type, or to a new group behind the others. -/
def addToGroups (type : ResourceType) (field : α) :
    List (ResourceType × FieldGroup α) → List (ResourceType × FieldGroup α)
  | [] => [(type, .singleton field)]
  | (other, group) :: rest =>
    if other = type then (other, group.push field) :: rest
    else (other, group) :: addToGroups type field rest

theorem mem_types_addToGroups (type other : ResourceType) (field : α)
    (groups : List (ResourceType × FieldGroup α)) :
    other ∈ (addToGroups type field groups).map Prod.fst ↔
      other = type ∨ other ∈ groups.map Prod.fst := by
  induction groups with
  | nil => simp [addToGroups]
  | cons head rest ih =>
    obtain ⟨first, group⟩ := head
    by_cases h : first = type
    · simp only [addToGroups, h, if_true, List.map_cons, List.mem_cons]
      constructor
      · exact Or.inr
      · rintro (h | h)
        · exact Or.inl h
        · exact h
    · simp only [addToGroups, h, if_false, List.map_cons, List.mem_cons, ih]
      constructor
      · rintro (h | h | h)
        · exact Or.inr (Or.inl h)
        · exact Or.inl h
        · exact Or.inr (Or.inr h)
      · rintro (h | h | h)
        · exact Or.inr (Or.inl h)
        · exact Or.inl h
        · exact Or.inr (Or.inr h)

theorem nodup_addToGroups (type : ResourceType) (field : α)
    (groups : List (ResourceType × FieldGroup α)) (nodup : (groups.map Prod.fst).Nodup) :
    ((addToGroups type field groups).map Prod.fst).Nodup := by
  induction groups with
  | nil => simp [addToGroups]
  | cons head rest ih =>
    obtain ⟨first, group⟩ := head
    rw [List.map_cons, List.nodup_cons] at nodup
    by_cases h : first = type
    · simpa only [addToGroups, h, if_true, List.map_cons, List.nodup_cons] using h ▸ nodup
    · rw [addToGroups, if_neg h, List.map_cons, List.nodup_cons, mem_types_addToGroups]
      refine ⟨?_, ih nodup.2⟩
      rintro (same | member)
      · exact h same
      · exact nodup.1 member

/-- Looking a type up in a list of groups compares it with the first type. -/
theorem lookup_group_cons (other first : ResourceType) (group : FieldGroup α)
    (rest : List (ResourceType × FieldGroup α)) :
    List.lookup other ((first, group) :: rest) =
      if other = first then some group else List.lookup other rest := by
  by_cases h : other = first
  · simp [h]
  · have different : (other == first) = false := by simpa using h
    simp [List.lookup_cons, h, different]

/-- A field goes to the end of the group of its type, and no other group changes. -/
theorem lookup_addToGroups (type other : ResourceType) (field : α)
    (groups : List (ResourceType × FieldGroup α)) :
    (addToGroups type field groups).lookup other =
      if other = type then
        some (match groups.lookup type with
          | some group => group.push field
          | none => .singleton field)
      else groups.lookup other := by
  induction groups with
  | nil => simp [addToGroups, lookup_group_cons]
  | cons head rest ih =>
    obtain ⟨first, group⟩ := head
    by_cases same : first = type
    · subst same
      by_cases h : other = first <;> simp [addToGroups, lookup_group_cons, h]
    · have different : ¬type = first := fun h => same h.symm
      rw [addToGroups, if_neg same, lookup_group_cons, lookup_group_cons, lookup_group_cons, ih,
        if_neg different]
      by_cases h : other = first
      · subst h
        simp [same]
      · simp [h]

end ResourceClasses
