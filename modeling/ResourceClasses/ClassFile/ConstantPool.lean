import ResourceClasses.BigEndian
import ResourceClasses.ClassFile.Error
import ResourceClasses.Text.ModifiedUtf8
import Std.Data.HashMap

/-!
The constant pool: the numbered constants of a class.

A writer adds constants and gets each one back at the index it already has; a reader appends them
as they come. Index zero holds nothing, and neither does the slot after a long or a double.
-/

set_option autoImplicit false

namespace ResourceClasses.ClassFile

/-- A constant; references lead to other constants of the same pool, and a member reference leads
to its owner and to the name and descriptor that select it. -/
inductive Constant
  | utf8 (text : String)
  | integer (value : Int32)
  | float (bits : UInt32)
  | long (value : Int64)
  | double (bits : UInt64)
  | classInfo (name : UInt16)
  | string (text : UInt16)
  | fieldRef (owner selector : UInt16)
  | methodRef (owner selector : UInt16)
  | interfaceMethodRef (owner selector : UInt16)
  | nameAndType (name descriptor : UInt16)
  deriving DecidableEq, Hashable, Repr

/-- Whether a constant takes two slots. -/
def Constant.isWide : Constant → Bool
  | long _ | double _ => true
  | _ => false

def Constant.width (constant : Constant) : Nat :=
  if constant.isWide then 2 else 1

/-- A field or method by its owner, name and descriptor. -/
structure MemberRef where
  owner : String
  name : String
  descriptor : String
  deriving DecidableEq, Repr

def MemberRef.text (ref : MemberRef) : String :=
  ref.owner ++ "." ++ ref.name ++ ":" ++ ref.descriptor

/-- The constants of a class with their slots, and the first index of each constant. -/
structure ConstantPool where
  slots : Array (Option Constant)
  indices : Std.HashMap Constant UInt16

namespace ConstantPool

def empty : ConstantPool :=
  ⟨#[none], ∅⟩

/-- One more than the highest slot. -/
def count (pool : ConstantPool) : Nat :=
  pool.slots.size

def isEmpty (pool : ConstantPool) : Bool :=
  pool.count ≤ 1

def get? (pool : ConstantPool) (index : UInt16) : Option Constant :=
  pool.slots[index.toNat]?.join

/-- The constants with their indices, in ascending order. -/
def toList (pool : ConstantPool) : List (Nat × Constant) :=
  pool.slots.toList.zipIdx.filterMap fun (constant, index) => constant.map fun c => (index, c)

/-- Puts a constant into the next slots, whether it is in the pool already or not. -/
def append (pool : ConstantPool) (constant : Constant) : ConstantPool :=
  let ⟨slots, indices⟩ := pool
  let index := UInt16.ofNat slots.size
  let slots := slots.push (some constant)
  { slots := if constant.isWide then slots.push none else slots
    indices := indices.insertIfNew constant index }

theorem count_append (pool : ConstantPool) (constant : Constant) :
    (pool.append constant).count = pool.count + constant.width := by
  obtain ⟨slots, indices⟩ := pool
  by_cases h : constant.isWide <;> simp [append, count, Constant.width, h]

/-- Adding a constant keeps the others where they are. -/
theorem get?_append_of_lt (pool : ConstantPool) (constant : Constant) (index : UInt16)
    (h : index.toNat < pool.count) : (pool.append constant).get? index = pool.get? index := by
  obtain ⟨slots, indices⟩ := pool
  have below : index.toNat < slots.size := h
  by_cases wide : constant.isWide <;>
    simp [append, get?, wide, Array.getElem?_push, Nat.ne_of_lt below,
      Nat.ne_of_lt (Nat.lt_succ_of_lt below)]

end ConstantPool

/-- A computation that adds constants to a pool; those added before a failure stay. -/
abbrev Pooled (α : Type) : Type :=
  EStateM FormatError ConstantPool α

/-- A result that leaves the pool alone. -/
def Pooled.ofExcept {α : Type} (result : Except FormatError α) : Pooled α := fun pool =>
  match result with
  | .ok value => .ok value pool
  | .error e => .error e pool

namespace ConstantPool

/-- The reason why a constant that is not in the pool cannot be added to it. -/
def refusal? (pool : ConstantPool) (constant : Constant) : Option FormatError :=
  let length :=
    match constant with
    | .utf8 text => (Text.ModifiedUtf8.encode text).length
    | _ => 0
  if length > maxCount then some (.utf8TooLong length)
  else if pool.count + constant.width > maxCount then some .constantPoolOverflow
  else none

/-- The index of a constant, which is added when it is not in the pool yet. -/
def intern (constant : Constant) : Pooled UInt16 := fun pool =>
  match pool.indices[constant]? with
  | some index => .ok index pool
  | none =>
    match pool.refusal? constant with
    | some refusal => .error refusal pool
    | none => .ok (UInt16.ofNat pool.count) (pool.append constant)

def utf8 (text : String) : Pooled UInt16 :=
  intern (.utf8 text)

def integer (value : Int32) : Pooled UInt16 :=
  intern (.integer value)

def classInfo (name : String) : Pooled UInt16 := do
  intern (.classInfo (← utf8 name))

def string (text : String) : Pooled UInt16 := do
  intern (.string (← utf8 text))

def nameAndType (name descriptor : String) : Pooled UInt16 := do
  let name ← utf8 name
  let descriptor ← utf8 descriptor
  intern (.nameAndType name descriptor)

def fieldRef (ref : MemberRef) : Pooled UInt16 := do
  let owner ← classInfo ref.owner
  let selector ← nameAndType ref.name ref.descriptor
  intern (.fieldRef owner selector)

def methodRef (ref : MemberRef) : Pooled UInt16 := do
  let owner ← classInfo ref.owner
  let selector ← nameAndType ref.name ref.descriptor
  intern (.methodRef owner selector)

def utf8At (pool : ConstantPool) (index : UInt16) : Except FormatError String :=
  match pool.get? index with
  | some (.utf8 text) => .ok text
  | _ => .error (.badConstantIndex index .utf8)

def integerAt (pool : ConstantPool) (index : UInt16) : Except FormatError Int32 :=
  match pool.get? index with
  | some (.integer value) => .ok value
  | _ => .error (.badConstantIndex index .integer)

def classAt (pool : ConstantPool) (index : UInt16) : Except FormatError String :=
  match pool.get? index with
  | some (.classInfo name) => pool.utf8At name
  | _ => .error (.badConstantIndex index .classInfo)

def stringAt (pool : ConstantPool) (index : UInt16) : Except FormatError String :=
  match pool.get? index with
  | some (.string text) => pool.utf8At text
  | _ => .error (.badConstantIndex index .string)

/-- The member of a class that a name and a descriptor select. -/
def memberOf (pool : ConstantPool) (owner selector : UInt16) : Except FormatError MemberRef :=
  match pool.get? selector with
  | some (.nameAndType name descriptor) => do
    let owner ← pool.classAt owner
    let name ← pool.utf8At name
    let descriptor ← pool.utf8At descriptor
    .ok ⟨owner, name, descriptor⟩
  | _ => .error (.badConstantIndex selector .nameAndType)

def memberAt (pool : ConstantPool) (index : UInt16) : Except FormatError MemberRef :=
  match pool.get? index with
  | some (.fieldRef owner selector) => pool.memberOf owner selector
  | some (.methodRef owner selector) => pool.memberOf owner selector
  | some (.interfaceMethodRef owner selector) => pool.memberOf owner selector
  | _ => .error (.badConstantIndex index .member)

end ConstantPool

def Constant.bytes : Constant → List UInt8
  | utf8 text =>
    let encoded := Text.ModifiedUtf8.encode text
    1 :: (bigEndian 2 encoded.length ++ encoded)
  | integer value => 3 :: word32 value.toUInt32
  | float bits => 4 :: word32 bits
  | long value => 5 :: word64 value.toUInt64
  | double bits => 6 :: word64 bits
  | classInfo name => 7 :: word16 name
  | string text => 8 :: word16 text
  | fieldRef owner selector => 9 :: (word16 owner ++ word16 selector)
  | methodRef owner selector => 10 :: (word16 owner ++ word16 selector)
  | interfaceMethodRef owner selector => 11 :: (word16 owner ++ word16 selector)
  | nameAndType name descriptor => 12 :: (word16 name ++ word16 descriptor)

def ConstantPool.bytes (pool : ConstantPool) : List UInt8 :=
  bigEndian 2 pool.count ++ pool.slots.toList.flatMap fun
    | some constant => constant.bytes
    | none => []

end ResourceClasses.ClassFile
