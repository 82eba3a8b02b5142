import ResourceClasses.ClassFile.Declaration

/-!
Class files: what the bytes of a class say, with all references resolved.
-/

set_option autoImplicit false

namespace ResourceClasses

namespace ClassFile

/-- The code of a method. -/
structure CodeAttribute where
  maxStack : UInt16
  maxLocals : UInt16
  bytes : List UInt8
  instructions : List Code.Located
  deriving DecidableEq, Repr

/-- An attribute of a class or of a member; one without a known layout keeps its bytes. -/
inductive Attribute
  | sourceFile (name : String)
  | innerClasses (entries : List InnerClass)
  | visibleAnnotations (annotations : List Annotation)
  | constantValue (value : ConstantValue)
  | code (body : CodeAttribute)
  | other (name : String) (content : List UInt8)
  deriving DecidableEq, Repr

namespace Attribute

def sourceFile? : Attribute → Option String
  | sourceFile name => some name
  | _ => none

def innerClasses? : Attribute → Option (List InnerClass)
  | innerClasses entries => some entries
  | _ => none

def visibleAnnotations? : Attribute → Option (List Annotation)
  | visibleAnnotations annotations => some annotations
  | _ => none

def constantValue? : Attribute → Option ConstantValue
  | constantValue value => some value
  | _ => none

def code? : Attribute → Option CodeAttribute
  | .code found => some found
  | _ => none

/-- The annotations of the first attribute that holds any. -/
def annotationsIn (attributes : List Attribute) : List Annotation :=
  (attributes.findSome? visibleAnnotations?).getD []

end Attribute

/-- A field or a method. -/
structure Member where
  access : UInt16
  name : String
  descriptor : String
  attributes : List Attribute
  deriving DecidableEq, Repr

namespace Member

def constantValue? (field : Member) : Option ConstantValue :=
  field.attributes.findSome? Attribute.constantValue?

def annotations (field : Member) : List Annotation :=
  Attribute.annotationsIn field.attributes

def code? (method : Member) : Option CodeAttribute :=
  method.attributes.findSome? Attribute.code?

end Member

end ClassFile

open ClassFile in
/-- What a class file says. -/
structure ClassFile where
  minorVersion : UInt16
  majorVersion : UInt16
  pool : ConstantPool
  access : UInt16
  thisClass : String
  superClass : Option String
  interfaces : List String
  fields : List Member
  methods : List Member
  attributes : List Attribute

namespace ClassFile

def field? (file : ClassFile) (name : String) : Option Member :=
  file.fields.find? fun field => field.name == name

def method? (file : ClassFile) (name : String) : Option Member :=
  file.methods.find? fun method => method.name == name

def sourceFile? (file : ClassFile) : Option String :=
  file.attributes.findSome? Attribute.sourceFile?

def innerClasses (file : ClassFile) : List InnerClass :=
  (file.attributes.findSome? Attribute.innerClasses?).getD []

def annotations (file : ClassFile) : List Annotation :=
  Attribute.annotationsIn file.attributes

end ClassFile

end ResourceClasses
