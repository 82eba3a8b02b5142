import ResourceClasses.ClassFile.Declaration
import ResourceClasses.Config

/-!
Resource fields: static fields of a resource class, which a constant or code gives their values.

A field that is declared without a constant is assigned by code. That code finds the package id in
local slot one if there is a shared id.
-/

set_option autoImplicit false

namespace ResourceClasses

open ClassFile (FieldDecl Insn Annotation)

/-- A kind of fields that a resource class can have. -/
class ResourceField (α : Type) where
  /-- The name of a field. -/
  name : α → String
  /-- The most bytes that the code of a field takes, without or with a shared id. -/
  maxCodeSize : Bool → α → Nat
  /-- The declaration of a field. -/
  declare : Config → α → FieldDecl
  /-- The code that assigns a field of the class of the given name. -/
  assign : String → Option SharedId → α → List Insn

namespace ResourceField

/-- The label of the element that names where something comes from. -/
def provenanceKey : String := "label"

/-- The annotation that names where a class or a field comes from. -/
def provenance (label : String) : Annotation where
  descriptor := "Lcom/google/devtools/build/android/resources/Provenance;"
  elements := [(provenanceKey, .string label)]

/-- Pushes a value, relative to the package id at hand if the shared id owns the value. -/
def pushValue (shared : Option SharedId) (value : Int32) : List Insn :=
  match shared with
  | some shared =>
    if shared.owns value then [.iload 1, .pushInt (shared.offset value), .iadd]
    else [.pushInt value]
  | none => [.pushInt value]

/-- Whether code has to assign a field that is declared like this. -/
def isDeferred (decl : FieldDecl) : Bool :=
  decl.constant.isNone

end ResourceField

end ResourceClasses
