import ResourceClasses.Generation.Chain

/-!
Generated classes: the outer class of a package, the classes of its resource types, and the class
that holds the package id.
-/

set_option autoImplicit false

namespace ResourceClasses.Generation

open ClassFile (ClassDecl FieldDecl InnerClass MethodDecl)

def classAccess : UInt16 :=
  ClassFile.Access.publicFlag ||| ClassFile.Access.finalFlag ||| ClassFile.Access.superFlag

/-- The access flags of the class of a resource type as a nested class. -/
def innerAccess : UInt16 :=
  ClassFile.Access.publicFlag ||| ClassFile.Access.finalFlag ||| ClassFile.Access.staticFlag

/-- A constructor that only calls that of the superclass. -/
def constructor : MethodDecl where
  access := ClassFile.Access.publicFlag
  name := "<init>"
  descriptor := "()V"
  code := [.aload 0, .invokeSpecial ⟨Name.objectClass, "<init>", "()V"⟩, .returnVoid]

/-- A class that names its source file and has a constructor. -/
def shell (name : String) : ClassDecl where
  access := classAccess
  name := name
  superName := Name.objectClass
  sourceFile := some Name.sourceFile
  methods := [constructor]

def innerEntry (outer : String) (type : ResourceType) : InnerClass :=
  ⟨Name.inner outer type, some outer, some type.name, innerAccess⟩

/-- The outer class of a package whose fields have the given types. -/
def outerClass (outer : String) (config : Config) (types : List ResourceType) : ClassDecl :=
  { shell outer with
    annotations :=
      match config.label with
      | some label => if config.annotate then [ResourceField.provenance label] else []
      | none => []
    innerClasses := types.map (innerEntry outer) }

/-- The class that holds the package id, which can be assigned again. -/
def sharedIdClass (shared : SharedId) : ClassDecl where
  access := classAccess
  name := shared.internalName
  superName := Name.objectClass
  fields :=
    [{ access := ClassFile.Access.publicFlag ||| ClassFile.Access.staticFlag
       name := SharedId.fieldName
       descriptor := "I"
       constant := some (.int shared.packageId) }]

variable {α : Type} [ResourceField α]

/-- The declaration of a field, if its name can name a member. -/
def declareChecked (className directory : String) (config : Config) (field : α) :
    Except GenerateError FieldDecl :=
  match Name.checkMember (ResourceField.name field) with
  | .ok () => .ok (ResourceField.declare config field)
  | .error reason =>
    .error (.invalidName (ResourceField.name field) className directory reason)

/-- The class of a resource type; the directory only serves to describe a failure. -/
def innerClass (outer : String) (type : ResourceType) (fields : List α) (directory : String)
    (config : Config) : Except GenerateError ClassDecl := do
  let name := Name.inner outer type
  let declared ← fields.mapM (declareChecked name directory config)
  let deferred := fields.filter fun field =>
    ResourceField.isDeferred (ResourceField.declare config field)
  let methods ← plan name config.sharedId.isSome deferred
  .ok { shell name with
    innerClasses := [innerEntry outer type]
    fields := declared
    methods := constructor :: methods.map (·.declare name config.sharedId) }

end ResourceClasses.Generation
