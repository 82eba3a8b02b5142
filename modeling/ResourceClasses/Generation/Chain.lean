import ResourceClasses.Field.Basic
import ResourceClasses.Generation.Error

/-!
Initializer chains: the methods that assign the fields of a class.

The code of a method is limited, so the fields are cut into blocks that fit, each as long as
possible, and each method calls the next one after it has assigned its block.
-/

set_option autoImplicit false

namespace ResourceClasses.Generation

open ClassFile (Insn MemberRef MethodDecl)

/-- The bytes at the end of each method: the call of the next one and the return. -/
def tailSize : Nat := 3 + 1

/-- The bytes at the start of each method that put the package id into its local slot. -/
def prologueSize (sharedId : Bool) : Nat :=
  if sharedId then 3 + 1 else 0

/-- The bytes that the prologue and the assignments of a method can take. -/
def methodBudget : Nat := ClassFile.maxCodeSize - tailSize

/-- The number of different sizes, which are machine words of 64 bits. -/
def sizeLimit : Nat := 0x10000000000000000

/-- The sum of two sizes; behind the last word, what follows is zero again. -/
def addSizes (size other : Nat) : Nat :=
  (size + other) % sizeLimit

/-- Consecutive items with the bytes that they and the prologue take. -/
structure Block (α : Type) where
  size : Nat
  items : List α
  deriving DecidableEq, Repr

/-- Cuts items into blocks, after finished blocks and the items of an open block, which are given
with the last one first; fails at an item that does not even fit on its own. -/
def cutAfter {α : Type} (prologue : Nat) (size : α → Nat) :
    List (Block α) → Nat → List α → List α → Except α (List (Block α))
  | finished, _, [], [] => .ok finished.reverse
  | finished, used, item :: others, [] => .ok (⟨used, (item :: others).reverse⟩ :: finished).reverse
  | finished, used, opened, item :: rest =>
    if addSizes used (size item) ≤ methodBudget then
      cutAfter prologue size finished (addSizes used (size item)) (item :: opened) rest
    else if addSizes prologue (size item) ≤ methodBudget then
      cutAfter prologue size (⟨used, opened.reverse⟩ :: finished) (addSizes prologue (size item))
        [item] rest
    else .error item

/-- Cuts items into blocks that fit, each as long as possible. -/
def cut {α : Type} (prologue : Nat) (size : α → Nat) (items : List α) :
    Except α (List (Block α)) :=
  cutAfter prologue size [] prologue [] items

/-- One method of a chain: its position, the bytes that its block and its prologue take, its fields
and where they start among all, and the position of the method that it calls. -/
structure InitializerMethod (α : Type) where
  ordinal : Nat
  codeSize : Nat
  start : Nat
  fields : List α
  next : Option Nat
  deriving DecidableEq, Repr

/-- The name of the method at a position: the first one runs when the class is initialized. -/
def methodName (ordinal : Nat) : String :=
  match ordinal with
  | 0 => "<clinit>"
  | n + 1 => "staticInit" ++ Nat.repr n

def methodAccess (ordinal : Nat) : UInt16 :=
  match ordinal with
  | 0 => ClassFile.Access.staticFlag
  | _ => ClassFile.Access.staticFlag ||| ClassFile.Access.privateFlag |||
      ClassFile.Access.syntheticFlag

def methodRef (className : String) (ordinal : Nat) : MemberRef :=
  ⟨className, methodName ordinal, "()V"⟩

/-- Makes methods of blocks, after methods that are given with the last one first. -/
def linkAfter {α : Type} :
    List (InitializerMethod α) → Nat → Nat → List (Block α) → List (InitializerMethod α)
  | methods, _, _, [] => methods.reverse
  | methods, ordinal, start, block :: rest =>
    let next := if rest.isEmpty then none else some (ordinal + 1)
    linkAfter (⟨ordinal, block.size, start, block.items, next⟩ :: methods) (ordinal + 1)
      (start + block.items.length) rest

/-- The methods of a chain, each of which calls the next one. -/
def link {α : Type} (blocks : List (Block α)) : List (InitializerMethod α) :=
  linkAfter [] 0 0 blocks

variable {α : Type} [ResourceField α]

/-- The chain that assigns the given fields of a class. -/
def plan (className : String) (sharedId : Bool) (fields : List α) :
    Except GenerateError (List (InitializerMethod α)) :=
  match cut (prologueSize sharedId) (ResourceField.maxCodeSize sharedId) fields with
  | .ok blocks => .ok (link blocks)
  | .error field => .error (.oversizedInitializer className (ResourceField.name field))

/-- The code that puts the package id into its local slot. -/
def prologue (shared : Option SharedId) : List Insn :=
  match shared with
  | some shared => [.getStatic shared.field, .istore 1]
  | none => []

/-- The code that calls the method at a position, if any, and returns. -/
def tail (className : String) (next : Option Nat) : List Insn :=
  match next with
  | some ordinal => [.invokeStatic (methodRef className ordinal), .returnVoid]
  | none => [.returnVoid]

def InitializerMethod.declare (className : String) (shared : Option SharedId)
    (method : InitializerMethod α) : MethodDecl where
  access := methodAccess method.ordinal
  name := methodName method.ordinal
  descriptor := "()V"
  code :=
    prologue shared ++
      (method.fields.flatMap (ResourceField.assign className shared) ++ tail className method.next)

end ResourceClasses.Generation
