import ResourceClasses.Field.Basic

/-!
Symbols: the resources of a package, each an int or an array of ints by name.
-/

set_option autoImplicit false

namespace ResourceClasses

open ClassFile (FieldDecl Insn)

/-- The value of a symbol. -/
inductive SymbolValue
  | int (value : Int32)
  | array (values : List Int32)
  deriving DecidableEq, Repr

/-- A resource of a package, with the label of the dependency that it comes from, if any. -/
structure Symbol where
  name : String
  value : SymbolValue
  dependency : Option String := none
  deriving DecidableEq, Repr

namespace Symbol

def descriptor (symbol : Symbol) : String :=
  match symbol.value with
  | .int _ => "I"
  | .array _ => "[I"

/-- More ints than the memory of a machine has room for, with four bytes each and addresses of at most
57 bits. -/
def maxElements : Nat := 0x80000000000000

/-- The most bytes that the code of a symbol takes: a push and a store, and for an array also its
creation and the stores of its elements. A list of more ints than any array has counts as one of
that many. -/
def maxCodeSize (sharedId : Bool) (symbol : Symbol) : Nat :=
  match symbol.value with
  | .int _ => if sharedId then 1 + 3 + 1 + 3 else 3 + 3
  | .array values =>
    3 + 2 + 3 +
      (if sharedId then 1 + 3 + 3 + 1 + 2 else 1 + 3 + 3 + 1) * min values.length maxElements

/-- The constant of the field of a symbol: a final int that no shared id moves has one. -/
def constant? (config : Config) (symbol : Symbol) : Option ClassFile.ConstantValue :=
  match symbol.value with
  | .int value => if config.finalFields && config.sharedId.isNone then some (.int value) else none
  | .array _ => none

def declare (config : Config) (symbol : Symbol) : FieldDecl :=
  let access := ClassFile.Access.publicFlag ||| ClassFile.Access.staticFlag
  { access := if config.finalFields then access ||| ClassFile.Access.finalFlag else access
    name := symbol.name
    descriptor := symbol.descriptor
    constant := symbol.constant? config
    annotations :=
      match symbol.dependency with
      | some label => if config.annotate then [ResourceField.provenance label] else []
      | none => [] }

/-- The code that stores one element of an array whose reference is on the stack. -/
def storeElement (shared : Option SharedId) (element : Int32 × Nat) : List Insn :=
  .dup :: .pushInt (Int32.ofNat element.2) ::
    (ResourceField.pushValue shared element.1 ++ [.iastore])

/-- The code that pushes the value of a symbol. -/
def push (shared : Option SharedId) (value : SymbolValue) : List Insn :=
  match value with
  | .int value => ResourceField.pushValue shared value
  | .array values =>
    .pushInt (Int32.ofNat values.length) :: .newIntArray ::
      values.zipIdx.flatMap (storeElement shared)

/-- The code that assigns the field of a symbol. -/
def assign (className : String) (shared : Option SharedId) (symbol : Symbol) : List Insn :=
  push shared symbol.value ++ [.putStatic ⟨className, symbol.name, symbol.descriptor⟩]

end Symbol

instance : ResourceField Symbol where
  name := Symbol.name
  maxCodeSize := Symbol.maxCodeSize
  declare := Symbol.declare
  assign := Symbol.assign

end ResourceClasses
