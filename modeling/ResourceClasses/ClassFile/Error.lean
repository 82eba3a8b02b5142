import ResourceClasses.Text.Quoted

/-!
Format errors: why a class cannot be written to a class file, or a file cannot be read as one.
-/

set_option autoImplicit false

namespace ResourceClasses.ClassFile

/-- The attributes with a known layout. -/
inductive KnownAttribute
  | sourceFile
  | innerClasses
  | visibleAnnotations
  | constantValue
  | code
  deriving DecidableEq, Repr

namespace KnownAttribute

def name : KnownAttribute → String
  | sourceFile => "SourceFile"
  | innerClasses => "InnerClasses"
  | visibleAnnotations => "RuntimeVisibleAnnotations"
  | constantValue => "ConstantValue"
  | code => "Code"

def all : List KnownAttribute :=
  [sourceFile, innerClasses, visibleAnnotations, constantValue, code]

def ofName? (name : String) : Option KnownAttribute :=
  all.find? fun known => known.name == name

end KnownAttribute

/-- The lists of a class whose length is limited when they are written. -/
inductive CountedList
  | fields
  | methods
  | innerClasses
  deriving DecidableEq, Repr

def CountedList.name : CountedList → String
  | fields => "fields"
  | methods => "methods"
  | innerClasses => "inner classes"

/-- What a reference into the constant pool is expected to lead to. -/
inductive ConstantKind
  | utf8
  | integer
  | classInfo
  | string
  | member
  | nameAndType
  deriving DecidableEq, Repr

def ConstantKind.name : ConstantKind → String
  | utf8 => "Utf8"
  | integer => "Integer"
  | classInfo => "Class"
  | string => "String"
  | member => "member reference"
  | nameAndType => "NameAndType"

/-- Why a class cannot be written or read. -/
inductive FormatError
  | codeTooLarge (method : String) (size : Nat)
  | constantPoolOverflow
  | utf8TooLong (length : Nat)
  | tooMany (list : CountedList) (className : String) (count : Nat)
  | stackUnderflow (method : String) (index : Nat)
  | invalidDescriptor (descriptor : String)
  | invalidMagic (magic : UInt32)
  | unexpectedEof (offset : Nat)
  | trailingBytes (count : Nat)
  | unsupportedConstant (tag : UInt8) (index : UInt16)
  | badConstantIndex (index : UInt16) (expected : ConstantKind)
  | invalidUtf8 (index : UInt16)
  | unsupportedOpcode (opcode : UInt8) (offset : Nat)
  | unsupportedElementValue (tag : Char)
  | malformedAttribute (known : KnownAttribute)
  deriving DecidableEq, Repr

def maxCodeSize : Nat := 65535

def maxCount : Nat := 65535

def FormatError.message : FormatError → String
  | codeTooLarge method size =>
    "method " ++ method ++ " has " ++ Nat.repr size ++ " bytes of code (limit is " ++
      Nat.repr maxCodeSize ++ ")"
  | constantPoolOverflow => "constant pool overflow: more than 65535 entries"
  | utf8TooLong length =>
    "string constant of " ++ Nat.repr length ++ " bytes exceeds the 65535 byte limit"
  | tooMany list className count =>
    "too many " ++ list.name ++ " in " ++ className ++ ": " ++ Nat.repr count
  | stackUnderflow method index =>
    "operand stack underflow in " ++ method ++ " at instruction " ++ Nat.repr index
  | invalidDescriptor descriptor => "invalid descriptor `" ++ descriptor ++ "`"
  | invalidMagic magic =>
    "invalid magic: expected 0xCAFEBABE, got " ++ Text.hexText 8 magic.toNat
  | unexpectedEof offset => "unexpected end of class file at offset " ++ Nat.repr offset
  | trailingBytes count => Nat.repr count ++ " trailing bytes after class file"
  | unsupportedConstant tag index =>
    "unsupported constant pool tag " ++ Nat.repr tag.toNat ++ " at index " ++
      Nat.repr index.toNat
  | badConstantIndex index expected =>
    "invalid constant pool index " ++ Nat.repr index.toNat ++ " (expected " ++ expected.name ++
      ")"
  | invalidUtf8 index =>
    "malformed modified UTF-8 in constant pool entry " ++ Nat.repr index.toNat
  | unsupportedOpcode opcode offset =>
    "unsupported opcode " ++ Text.hexText 2 opcode.toNat ++ " at offset " ++ Nat.repr offset
  | unsupportedElementValue tag =>
    "unsupported annotation element tag " ++ Text.quotedChar tag
  | malformedAttribute known => "malformed " ++ known.name ++ " attribute"

end ResourceClasses.ClassFile
