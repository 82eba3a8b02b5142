import ResourceClasses.Generation.Classes
import ResourceClasses.Proofs.Generation.Chain
import ResourceClasses.Proofs.Outcome

/-!
Laws of generated classes: what a class of a resource type consists of when there is one.
-/

set_option autoImplicit false

namespace ResourceClasses.Generation

open ClassFile (FieldDecl ClassDecl)

variable {α : Type} [ResourceField α]

/-- The fields that code has to assign. -/
def deferred (config : Config) (fields : List α) : List α :=
  fields.filter fun field => ResourceField.isDeferred (ResourceField.declare config field)

/-- The class of a resource type with a chain that is made of the given blocks. -/
def innerClassOf (outer : String) (type : ResourceType) (fields : List α) (config : Config)
    (blocks : List (Block α)) : ClassDecl :=
  { shell (Name.inner outer type) with
    innerClasses := [innerEntry outer type]
    fields := fields.map (ResourceField.declare config)
    methods := constructor ::
      (link blocks).map (·.declare (Name.inner outer type) config.sharedId) }

private theorem declareChecked_ok {className directory : String} {config : Config} {field : α}
    {decl : FieldDecl} (checked : declareChecked className directory config field = .ok decl) :
    decl = ResourceField.declare config field := by
  unfold declareChecked at checked
  split at checked
  · exact (Except.ok.inj checked).symm
  · contradiction

/-- A class of a resource type has all its fields, and a chain for those that have no constant. -/
theorem innerClass_ok {outer directory : String} {type : ResourceType} {fields : List α}
    {config : Config} {decl : ClassDecl}
    (done : innerClass outer type fields directory config = .ok decl) :
    ∃ blocks,
      cut (prologueSize config.sharedId.isSome)
          (ResourceField.maxCodeSize config.sharedId.isSome) (deferred config fields) =
        .ok blocks ∧
      decl = innerClassOf outer type fields config blocks := by
  obtain ⟨declared, checked, done⟩ := bind_eq_ok_iff.mp done
  obtain ⟨methods, planned, done⟩ := bind_eq_ok_iff.mp done
  obtain ⟨blocks, cutting, rfl⟩ := plan_eq_ok_iff.mp planned
  have declared_eq : declared.map id = fields.map (ResourceField.declare config) :=
    map_eq_of_forall₂ (forall₂_of_mapM checked) fun _ _ => declareChecked_ok
  rw [List.map_id] at declared_eq
  refine ⟨blocks, cutting, ?_⟩
  rw [← Except.ok.inj done, declared_eq]
  rfl

end ResourceClasses.Generation
