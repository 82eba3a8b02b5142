import ResourceClasses.Text.Hexadecimal

/-!
Access flags: the bits that say how classes, fields and methods may be used, and their names where
they stand.
-/

set_option autoImplicit false

namespace ResourceClasses.ClassFile.Access

def publicFlag : UInt16 := 0x0001

def privateFlag : UInt16 := 0x0002

def staticFlag : UInt16 := 0x0008

def finalFlag : UInt16 := 0x0010

/-- Calls to methods of the superclass are resolved anew. -/
def superFlag : UInt16 := 0x0020

def syntheticFlag : UInt16 := 0x1000

/-- What a set of access flags belongs to. -/
inductive Holder
  | topLevel
  | innerClass
  | field
  | method
  deriving DecidableEq, Repr

/-- The flags with a name where they stand, in the order in which they are listed. -/
def Holder.flagNames : Holder → List (UInt16 × String)
  | topLevel =>
    [(0x0001, "public"), (0x0010, "final"), (0x0020, "super"), (0x0200, "interface"),
      (0x0400, "abstract"), (0x1000, "synthetic"), (0x2000, "annotation"), (0x4000, "enum")]
  | innerClass =>
    [(0x0001, "public"), (0x0002, "private"), (0x0004, "protected"), (0x0008, "static"),
      (0x0010, "final"), (0x0200, "interface"), (0x0400, "abstract"), (0x1000, "synthetic"),
      (0x2000, "annotation"), (0x4000, "enum")]
  | field =>
    [(0x0001, "public"), (0x0002, "private"), (0x0004, "protected"), (0x0008, "static"),
      (0x0010, "final"), (0x0040, "volatile"), (0x0080, "transient"), (0x1000, "synthetic"),
      (0x4000, "enum")]
  | method =>
    [(0x0001, "public"), (0x0002, "private"), (0x0004, "protected"), (0x0008, "static"),
      (0x0010, "final"), (0x0020, "synchronized"), (0x0040, "bridge"), (0x0080, "varargs"),
      (0x0100, "native"), (0x0400, "abstract"), (0x0800, "strict"), (0x1000, "synthetic")]

def text (holder : Holder) (flags : UInt16) : String :=
  let names := (holder.flagNames.filter fun (bit, _) => flags &&& bit != 0).map Prod.snd
  String.intercalate " " (Text.hexText 4 flags.toNat :: names)

end ResourceClasses.ClassFile.Access
