import ResourceClasses.ClassFile.ConstantPool
import ResourceClasses.Name.Class

/-!
Shared ids: a class of its own holds the package id, so that values numbered with one id can be
moved to another when the classes are loaded.
-/

set_option autoImplicit false

namespace ResourceClasses

/-- The class that holds the package id, by its dotted name, and the id that values are numbered
with. -/
structure SharedId where
  className : String
  packageId : Int32
  deriving DecidableEq, Repr

namespace SharedId

def fieldName : String := "packageId"

def internalName (shared : SharedId) : String :=
  Name.internal shared.className

def field (shared : SharedId) : ClassFile.MemberRef :=
  ⟨shared.internalName, fieldName, "I"⟩

/-- Whether a value is numbered with the package id: both have the same top byte. -/
def owns (shared : SharedId) (value : Int32) : Bool :=
  value.toUInt32.toNat / 0x1000000 == shared.packageId.toUInt32.toNat / 0x1000000

/-- What has to be added to the package id to get a value. -/
def offset (shared : SharedId) (value : Int32) : Int32 :=
  value - shared.packageId

end SharedId

end ResourceClasses
