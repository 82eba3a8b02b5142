import ResourceClasses.ClassFile.Access
import ResourceClasses.ClassFile.Code

/-!
Declarations: classes with their fields and methods in symbolic form, and the class file of one.

Everything but the pool is written first, which fills the pool that is written before it.
-/

set_option autoImplicit false

namespace ResourceClasses.ClassFile

/-- The value of an annotation element. -/
inductive ElementValue
  | string (text : String)
  | int (value : Int32)
  deriving DecidableEq, Repr

/-- An annotation: its type and its named elements. -/
structure Annotation where
  descriptor : String
  elements : List (String × ElementValue)
  deriving DecidableEq, Repr

/-- A nested class as its own class and the classes around it list it. -/
structure InnerClass where
  inner : String
  outer : Option String
  simpleName : Option String
  access : UInt16
  deriving DecidableEq, Repr

/-- The constant that a field holds from the start. -/
inductive ConstantValue
  | int (value : Int32)
  | string (text : String)
  deriving DecidableEq, Repr

/-- A field of a class. -/
structure FieldDecl where
  access : UInt16
  name : String
  descriptor : String
  constant : Option ConstantValue := none
  annotations : List Annotation := []
  deriving DecidableEq, Repr

/-- A method of a class. -/
structure MethodDecl where
  access : UInt16
  name : String
  descriptor : String
  code : List Insn := []
  deriving DecidableEq, Repr

/-- A class. -/
structure ClassDecl where
  access : UInt16
  name : String
  superName : String
  sourceFile : Option String := none
  innerClasses : List InnerClass := []
  annotations : List Annotation := []
  fields : List FieldDecl := []
  methods : List MethodDecl := []
  deriving DecidableEq, Repr

def magic : UInt32 := 0xcafebabe

def writtenMajorVersion : UInt16 := 51

/-- The minor part of the version. -/
def writtenMinorVersion : UInt16 := 0

/-- The pieces that a list of items is written to, one after the other. -/
def concatenated {α : Type} (write : α → Pooled (List UInt8)) (items : List α) :
    Pooled (List UInt8) := do
  pure (← items.mapM write).flatten

/-- The bytes of a named element: its name, the tag of its value and the index of the value. -/
def elementBytes (element : String × ElementValue) : Pooled (List UInt8) := do
  let name ← ConstantPool.utf8 element.1
  match element.2 with
  | .string text => do pure (word16 name ++ 0x73 :: word16 (← ConstantPool.utf8 text))
  | .int value => do pure (word16 name ++ 0x49 :: word16 (← ConstantPool.integer value))

def Annotation.encode (note : Annotation) : Pooled (List UInt8) := do
  let descriptor ← ConstantPool.utf8 note.descriptor
  let elements ← concatenated elementBytes note.elements
  pure (word16 descriptor ++ bigEndian 2 note.elements.length ++ elements)

def annotationsBody (annotations : List Annotation) : Pooled (List UInt8) := do
  let body ← concatenated Annotation.encode annotations
  pure (bigEndian 2 annotations.length ++ body)

def attributeBytes (content : KnownAttribute × List UInt8) : Pooled (List UInt8) := do
  let name ← ConstantPool.utf8 content.1.name
  pure (word16 name ++ bigEndian 4 content.2.length ++ content.2)

def attributesBytes (contents : List (KnownAttribute × List UInt8)) : Pooled (List UInt8) := do
  let bytes ← concatenated attributeBytes contents
  pure (bigEndian 2 contents.length ++ bytes)

/-- The index of the constant that a field holds from the start. -/
def ConstantValue.index : ConstantValue → Pooled UInt16
  | int value => ConstantPool.integer value
  | string text => ConstantPool.string text

/-- The attribute of the constant that a field holds, if it holds one. -/
def constantAttributes : Option ConstantValue → Pooled (List (KnownAttribute × List UInt8))
  | some value => do pure [(.constantValue, word16 (← value.index))]
  | none => pure []

/-- The attribute of a list of annotations, unless it is empty. -/
def annotationAttributes (annotations : List Annotation) :
    Pooled (List (KnownAttribute × List UInt8)) :=
  if annotations.isEmpty then pure []
  else do pure [(.visibleAnnotations, ← annotationsBody annotations)]

def FieldDecl.encode (field : FieldDecl) : Pooled (List UInt8) := do
  let name ← ConstantPool.utf8 field.name
  let descriptor ← ConstantPool.utf8 field.descriptor
  let constants ← constantAttributes field.constant
  let annotations ← annotationAttributes field.annotations
  let attributes ← attributesBytes (constants ++ annotations)
  pure (word16 field.access ++ word16 name ++ word16 descriptor ++ attributes)

/-- The local slots of the arguments of a method, one more when it has an instance. -/
def MethodDecl.argumentSlots (method : MethodDecl) : Except FormatError Nat := do
  let (slots, _) ← Descriptor.methodSlots method.descriptor
  pure (if method.access &&& Access.staticFlag = 0 then slots + 1 else slots)

/-- The content of the code attribute of a method body, without handlers and attributes. -/
def Code.Encoded.content (code : Code.Encoded) : List UInt8 :=
  bigEndian 2 code.maxStack ++ bigEndian 2 code.maxLocals ++
    bigEndian 4 code.bytes.length ++ code.bytes ++ word16 0 ++ word16 0

def MethodDecl.encode (method : MethodDecl) : Pooled (List UInt8) := do
  let name ← ConstantPool.utf8 method.name
  let descriptor ← ConstantPool.utf8 method.descriptor
  let argumentSlots ← Pooled.ofExcept method.argumentSlots
  let code ← Code.encode method.name argumentSlots method.code
  let attributes ← attributesBytes [(.code, code.content)]
  pure (word16 method.access ++ word16 name ++ word16 descriptor ++ attributes)

/-- The index that some name leads to, or zero for no name. -/
def optionalIndex (intern : String → Pooled UInt16) : Option String → Pooled UInt16
  | some name => intern name
  | none => pure 0

def InnerClass.encode (entry : InnerClass) : Pooled (List UInt8) := do
  let inner ← ConstantPool.classInfo entry.inner
  let outer ← optionalIndex ConstantPool.classInfo entry.outer
  let simpleName ← optionalIndex ConstantPool.utf8 entry.simpleName
  pure (word16 inner ++ word16 outer ++ word16 simpleName ++ word16 entry.access)

namespace ClassDecl

/-- The attribute of the source file of a class, if it has one. -/
def sourceAttributes (decl : ClassDecl) : Pooled (List (KnownAttribute × List UInt8)) :=
  match decl.sourceFile with
  | some name => do pure [(.sourceFile, word16 (← ConstantPool.utf8 name))]
  | none => pure []

/-- The attribute of the nested classes that a class lists, unless there are none. -/
def innerAttributes (decl : ClassDecl) : Pooled (List (KnownAttribute × List UInt8)) :=
  if decl.innerClasses.isEmpty then pure []
  else do
    let entries ← concatenated InnerClass.encode decl.innerClasses
    pure [(.innerClasses, bigEndian 2 decl.innerClasses.length ++ entries)]

def attributes (decl : ClassDecl) : Pooled (List (KnownAttribute × List UInt8)) := do
  let source ← decl.sourceAttributes
  let inner ← decl.innerAttributes
  let annotations ← annotationAttributes decl.annotations
  pure (source ++ inner ++ annotations)

/-- Everything that follows the pool in the class file of a class. -/
def body (decl : ClassDecl) : Pooled (List UInt8) := do
  let name ← ConstantPool.classInfo decl.name
  let superName ← ConstantPool.classInfo decl.superName
  let fields ← concatenated FieldDecl.encode decl.fields
  let methods ← concatenated MethodDecl.encode decl.methods
  let attributes ← attributesBytes (← decl.attributes)
  pure
    (word16 decl.access ++ (word16 name ++ (word16 superName ++ (word16 0 ++
      (bigEndian 2 decl.fields.length ++ (fields ++
        (bigEndian 2 decl.methods.length ++ (methods ++ attributes))))))))

/-- The list of a class that is too long to be counted, if there is one. -/
def tooMany? (decl : ClassDecl) : Option FormatError :=
  if decl.fields.length > maxCount then some (.tooMany .fields decl.name decl.fields.length)
  else if decl.methods.length > maxCount then
    some (.tooMany .methods decl.name decl.methods.length)
  else if decl.innerClasses.length > maxCount then
    some (.tooMany .innerClasses decl.name decl.innerClasses.length)
  else none

/-- The class file of a class. -/
def toBytes (decl : ClassDecl) : Except FormatError (List UInt8) :=
  match decl.tooMany? with
  | some e => .error e
  | none =>
    match decl.body .empty with
    | .error e _ => .error e
    | .ok body pool =>
      .ok
        (word32 magic ++ word16 writtenMinorVersion ++ word16 writtenMajorVersion ++ pool.bytes ++
          body)

end ClassDecl

end ResourceClasses.ClassFile
