import ResourceClasses.SharedId

/-!
Settings that all classes of a generation have in common.
-/

set_option autoImplicit false

namespace ResourceClasses

/-- What generated classes look like: whether fields are final, whether classes and fields name
where they come from, the label of what is built, and the class that holds the package id. -/
structure Config where
  finalFields : Bool := false
  annotate : Bool := false
  label : Option String := none
  sharedId : Option SharedId := none
  deriving DecidableEq, Repr

end ResourceClasses
