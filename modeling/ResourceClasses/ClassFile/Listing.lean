import ResourceClasses.ClassFile.Basic
import ResourceClasses.Text.Quoted

/-!
Listings: a class file as text, without the indices of the constant pool.
-/

set_option autoImplicit false

namespace ResourceClasses.ClassFile

def decimal (value : Int32) : String :=
  let n := value.toInt
  if n < 0 then "-" ++ Nat.repr n.natAbs else Nat.repr n.natAbs

/-- What an instruction is listed with after its mnemonic, if anything: an int that the opcode does
not name, a local slot that the opcode cannot name, the element type of an array, or a member. -/
def Insn.operandText? (opcode : UInt8) : Insn → Option String
  | pushInt value => if 2 ≤ opcode.toNat ∧ opcode.toNat ≤ 8 then none else some (decimal value)
  | aload slot | iload slot | istore slot =>
    if slot.toNat > 3 then some (Nat.repr slot.toNat) else none
  | newIntArray => some "int"
  | getStatic ref | putStatic ref | invokeStatic ref | invokeSpecial ref => some ref.text
  | iadd | dup | iastore | returnVoid => none

/-- A text filled up with blanks on its left to at least the given width. -/
def alignedRight (width : Nat) (text : String) : String :=
  String.ofList (List.replicate (width - text.length) ' ') ++ text

/-- The line of an instruction, with offsets of the given width. -/
def Code.Located.line (width : Nat) (located : Code.Located) : String :=
  let head :=
    "    " ++ alignedRight width (Nat.repr located.offset) ++ ": " ++ mnemonic located.opcode
  match located.insn.operandText? located.opcode with
  | some operand => if operand.isEmpty then head else head ++ " " ++ operand
  | none => head

def CodeAttribute.instructionLines (code : CodeAttribute) : List String :=
  let width := (Nat.repr (max code.bytes.length 1)).length
  code.instructions.map (·.line width)

def CodeAttribute.lines (code : CodeAttribute) : List String :=
  ("  code: " ++ Nat.repr code.bytes.length ++ " bytes, stack=" ++ Nat.repr code.maxStack.toNat ++
      ", locals=" ++ Nat.repr code.maxLocals.toNat) ::
    code.instructionLines

def elementText : String × ElementValue → String
  | (name, .string text) => name ++ " = " ++ Text.quoted text
  | (name, .int value) => name ++ " = " ++ decimal value

def Annotation.text (note : Annotation) : String :=
  "@" ++ note.descriptor ++ "(" ++
    String.intercalate ", " (note.elements.map elementText) ++ ")"

def InnerClass.line (entry : InnerClass) : String :=
  "  inner: " ++ entry.inner ++
    (match entry.outer with
      | some outer => " in " ++ outer
      | none => "") ++
    (match entry.simpleName with
      | some name => " as " ++ name
      | none => "") ++
    " (" ++ Access.text .innerClass entry.access ++ ")"

def ConstantValue.text : ConstantValue → String
  | int value => "int " ++ Text.hexText 1 value.toUInt32.toNat
  | string text => "string " ++ Text.quoted text

def Attribute.lines : Attribute → List String
  | sourceFile name => ["  source: " ++ name]
  | innerClasses entries => entries.map InnerClass.line
  | visibleAnnotations annotations => annotations.map fun note => "  " ++ note.text
  | constantValue value => ["  constant: " ++ value.text]
  | code body => body.lines
  | other name content => ["  " ++ name ++ ": " ++ Nat.repr content.length ++ " bytes"]

/-- The lines of a member of the given kind, after an empty one. -/
def Member.lines (kind : String) (holder : Access.Holder) (member : Member) : List String :=
  "" :: (kind ++ " " ++ member.name ++ " " ++ member.descriptor) ::
    ("  flags: " ++ Access.text holder member.access) ::
    member.attributes.flatMap Attribute.lines

def lines (file : ClassFile) : List String :=
  ("class " ++ file.thisClass ++
    (match file.superClass with
      | some name => " extends " ++ name
      | none => "")) ::
    ("  version: " ++ Nat.repr file.majorVersion.toNat ++ "." ++
      Nat.repr file.minorVersion.toNat) ::
    ("  flags: " ++ Access.text .topLevel file.access) ::
    (file.attributes.flatMap Attribute.lines ++
      (file.fields.flatMap (Member.lines "field" .field) ++
        file.methods.flatMap (Member.lines "method" .method)))

def listing (file : ClassFile) : String :=
  String.join (file.lines.map (· ++ "\n"))

end ResourceClasses.ClassFile
