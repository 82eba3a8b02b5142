import ResourceClasses.ClassFile.Basic
import ResourceClasses.ClassFile.Reader

/-!
Reading class files: the pool first, and then everything else with its references resolved.
-/

set_option autoImplicit false

namespace ResourceClasses.ClassFile

open Reader

def readUtf8 (pool : ConstantPool) : Reader String := do
  ofExcept (pool.utf8At (← twoBytes))

def readClass (pool : ConstantPool) : Reader String := do
  ofExcept (pool.classAt (← twoBytes))

/-- What an index that is read leads to, if it is not zero. -/
def readOptional (resolve : UInt16 → Except FormatError String) : Reader (Option String) := do
  let index ← twoBytes
  if index = 0 then pure none else some <$> ofExcept (resolve index)

/-- A constant of the pool, which will have the given index. -/
def readConstant (index : Nat) : Reader Constant := do
  let tag ← byte
  match tag.toNat with
  | 1 => do
    let length ← number 2
    let bytes ← take length
    match Text.ModifiedUtf8.decode? bytes with
    | some text => pure (.utf8 text)
    | none => ofExcept (.error (.invalidUtf8 (UInt16.ofNat index)))
  | 3 => do pure (.integer (← fourBytes).toInt32)
  | 4 => do pure (.float (← fourBytes))
  | 5 => do pure (.long (← eightBytes).toInt64)
  | 6 => do pure (.double (← eightBytes))
  | 7 => do pure (.classInfo (← twoBytes))
  | 8 => do pure (.string (← twoBytes))
  | 9 => do pure (.fieldRef (← twoBytes) (← twoBytes))
  | 10 => do pure (.methodRef (← twoBytes) (← twoBytes))
  | 11 => do pure (.interfaceMethodRef (← twoBytes) (← twoBytes))
  | 12 => do pure (.nameAndType (← twoBytes) (← twoBytes))
  | _ => ofExcept (.error (.unsupportedConstant tag (UInt16.ofNat index)))

/-- Fills the given number of slots of a pool; a constant of two slots may fill one more. -/
def fillPool : Nat → ConstantPool → Reader ConstantPool
  | 0, pool => pure pool
  | 1, pool => do
    let constant ← readConstant pool.count
    pure (pool.append constant)
  | n + 2, pool => do
    let constant ← readConstant pool.count
    if constant.isWide then fillPool n (pool.append constant)
    else fillPool (n + 1) (pool.append constant)

/-- The constant pool after its count. -/
def readPool : Reader ConstantPool := do
  let count ← number 2
  fillPool (count - 1) .empty

def readElementValue (pool : ConstantPool) : Reader ElementValue := do
  let tag ← byte
  let index ← twoBytes
  match Char.ofNat tag.toNat with
  | 's' => ofExcept (.string <$> pool.utf8At index)
  | 'I' => ofExcept (.int <$> pool.integerAt index)
  | other => ofExcept (.error (.unsupportedElementValue other))

def readElement (pool : ConstantPool) : Reader (String × ElementValue) := do
  let name ← readUtf8 pool
  let value ← readElementValue pool
  pure (name, value)

def readAnnotationEntry (pool : ConstantPool) : Reader Annotation := do
  let descriptor ← readUtf8 pool
  let elements ← counted (readElement pool)
  pure ⟨descriptor, elements⟩

def readInnerClass (pool : ConstantPool) : Reader InnerClass := do
  let inner ← readClass pool
  let outer ← readOptional pool.classAt
  let simpleName ← readOptional pool.utf8At
  let access ← twoBytes
  pure ⟨inner, outer, simpleName, access⟩

/-- The constant that a field holds from the start: an int or a string of the pool. -/
def readConstantValue (pool : ConstantPool) : Reader ConstantValue := do
  let index ← twoBytes
  match pool.get? index with
  | some (.integer value) => pure (.int value)
  | some (.string _) => ofExcept (.string <$> pool.stringAt index)
  | _ => ofExcept (.error (.malformedAttribute .constantValue))

/-- An attribute whose name and content are passed over. -/
def skipAttribute : Reader Unit := do
  let _ ← number 2
  let length ← number 4
  let _ ← take length

/-- The code of a method; its handlers and attributes are passed over. -/
def readCode (pool : ConstantPool) : Reader CodeAttribute := do
  let maxStack ← twoBytes
  let maxLocals ← twoBytes
  let length ← number 4
  let bytes ← take length
  let handlers ← number 2
  let _ ← take (8 * handlers)
  let _ ← counted skipAttribute
  let instructions ← ofExcept (Code.instructions pool bytes)
  pure ⟨maxStack, maxLocals, bytes, instructions⟩

def readKnown (pool : ConstantPool) : KnownAttribute → Reader Attribute
  | .sourceFile => .sourceFile <$> readUtf8 pool
  | .constantValue => .constantValue <$> readConstantValue pool
  | .innerClasses => .innerClasses <$> counted (readInnerClass pool)
  | .visibleAnnotations => .visibleAnnotations <$> counted (readAnnotationEntry pool)
  | .code => .code <$> readCode pool

/-- The attribute of a given name and content; a known layout has to take up all of the content. -/
def attributeOf (pool : ConstantPool) (name : String) (content : List UInt8) :
    Except FormatError Attribute :=
  match KnownAttribute.ofName? name with
  | none => .ok (.other name content)
  | some known =>
    match (readKnown pool known).run content with
    | .error e => .error e
    | .ok (found, []) => .ok found
    | .ok (_, _ :: _) => .error (.malformedAttribute known)

def readAttribute (pool : ConstantPool) : Reader Attribute := do
  let name ← readUtf8 pool
  let length ← number 4
  let content ← take length
  ofExcept (attributeOf pool name content)

def readMember (pool : ConstantPool) : Reader Member := do
  let access ← twoBytes
  let name ← readUtf8 pool
  let descriptor ← readUtf8 pool
  let attributes ← counted (readAttribute pool)
  pure ⟨access, name, descriptor, attributes⟩

/-- A class file; bytes may be left behind it. -/
def readClassFile : Reader ClassFile := do
  let found ← fourBytes
  if found ≠ magic then
    ofExcept (.error (.invalidMagic found))
  else
    let minorVersion ← twoBytes
    let majorVersion ← twoBytes
    let pool ← readPool
    let access ← twoBytes
    let thisClass ← readClass pool
    let superClass ← readOptional pool.classAt
    let interfaces ← counted (readClass pool)
    let fields ← counted (readMember pool)
    let methods ← counted (readMember pool)
    let attributes ← counted (readAttribute pool)
    pure
      { minorVersion, majorVersion, pool, access, thisClass, superClass, interfaces, fields,
        methods, attributes }

/-- The class file that the bytes hold, all of them. -/
def parse (bytes : List UInt8) : Except FormatError ClassFile :=
  match readClassFile.run bytes with
  | .error e => .error e
  | .ok (file, []) => .ok file
  | .ok (_, byte :: rest) => .error (.trailingBytes (byte :: rest).length)

end ResourceClasses.ClassFile
