import ResourceClasses.ClassFile.Error
import ResourceClasses.Collect
import ResourceClasses.Total

/-!
Descriptors: the types of fields and methods, read for the stack slots that their values take.
-/

set_option autoImplicit false

namespace ResourceClasses.ClassFile.Descriptor

/-- What follows a class name and its semicolon; the name is not empty. -/
def afterClassName (cs : List Char) : Option (List Char) :=
  match cs.dropWhile (· ≠ ';') with
  | _ :: rest => if cs.head? = some ';' then none else some rest
  | [] => none

/-- What follows the type of a value. -/
def afterType : List Char → Option (List Char)
  | '[' :: rest => afterType rest
  | 'L' :: rest => afterClassName rest
  | c :: rest => if "BCDFIJSZ".toList.contains c then some rest else none
  | [] => none

/-- The slots of a value whose type starts with the given character. -/
def slotsOf (c : Char) : Nat :=
  if c = 'J' ∨ c = 'D' then 2 else 1

/-- The slots of the value type at the front of a text, and what follows the type. -/
def valueType? (cs : List Char) : Option (Nat × List Char) :=
  match cs with
  | c :: _ => (afterType cs).map fun rest => (slotsOf c, rest)
  | [] => none

/-- The slots of a value type or of the empty type that is all of a text. -/
def wholeType? (cs : List Char) : Option Nat :=
  if cs = ['V'] then some 0
  else
    match valueType? cs with
    | some (slots, []) => some slots
    | _ => none

/-- One step through the arguments of a method: a value type, or their end. -/
def argument (cs : List Char) : Except Unit (Step Nat (List Char)) :=
  match cs with
  | ')' :: _ => .ok (.done cs)
  | _ =>
    match valueType? cs with
    | some (slots, rest) => .ok (.item slots rest)
    | none => .error ()

/-- The slots of a value of the given field descriptor; the empty type takes none. -/
def fieldSlots (descriptor : String) : Except FormatError Nat :=
  match wholeType? descriptor.toList with
  | some slots => .ok slots
  | none => .error (.invalidDescriptor descriptor)

/-- The slots of some values together. They are counted in sixteen bits, and what follows 65535 is
zero again. -/
def sumSlots (slots : List Nat) : UInt16 :=
  slots.foldl (fun sum slots => sum + UInt16.ofNat slots) 0

private theorem toNat_foldl_add (slots : List Nat) (sum : UInt16) :
    (slots.foldl (fun sum slots => sum + UInt16.ofNat slots) sum).toNat =
      (sum.toNat + total slots) % 65536 := by
  induction slots generalizing sum with
  | nil => exact (Nat.mod_eq_of_lt sum.toNat_lt).symm
  | cons first rest ih =>
    rw [List.foldl_cons, ih, UInt16.toNat_add, UInt16.toNat_ofNat', total_cons]
    omega

theorem toNat_sumSlots (slots : List Nat) : (sumSlots slots).toNat = total slots % 65536 := by
  rw [sumSlots, toNat_foldl_add, UInt16.toNat_zero, Nat.zero_add]

/-- The slots of the arguments and of the result of the given method descriptor. -/
def methodSlots (descriptor : String) : Except FormatError (Nat × Nat) :=
  let slots? : Option (Nat × Nat) :=
    match descriptor.toList with
    | '(' :: rest =>
      match collect List.length argument rest with
      | .ok (slots, _ :: result) =>
        (wholeType? result).map fun result => ((sumSlots slots).toNat, result)
      | _ => none
    | _ => none
  match slots? with
  | some slots => .ok slots
  | none => .error (.invalidDescriptor descriptor)

@[simp]
theorem fieldSlots_int : fieldSlots "I" = .ok 1 := by rfl

@[simp]
theorem fieldSlots_intArray : fieldSlots "[I" = .ok 1 := by rfl

@[simp]
theorem methodSlots_void : methodSlots "()V" = .ok (0, 0) := by rfl

end ResourceClasses.ClassFile.Descriptor
