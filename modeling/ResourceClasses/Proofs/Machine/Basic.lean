import Mathlib.Logic.Relation
import ResourceClasses.ClassFile.Basic
import ResourceClasses.Field.Symbol

/-!
A machine for static code: it runs the instructions of class initialization on ints and arrays of
ints.

The machine keeps one frame for each method that has been entered and not left. It records each
store to a static field, and the operands that each method leaves behind when it returns. What the
fields of other classes hold is fixed for a run.
-/

set_option autoImplicit false

namespace ResourceClasses.Machine

open ClassFile (Insn MemberRef)

/-- An int, or a reference to an array by its place on the heap. -/
inductive Value
  | int (n : Int32)
  | array (address : Nat)
  deriving DecidableEq, Repr

/-- Why the machine cannot go on. -/
inductive Fault
  | emptyStack
  | wrongKind
  | unsetLocal
  | negativeLength
  | outsideArray
  | unknownField
  | unknownMethod
  | endOfCode
  | finished
  deriving DecidableEq, Repr

/-- A class as its static code sees it: its static methods, its static fields, the ints that these
hold from the start, and what the fields of other classes hold. -/
structure Program where
  methods : List (MemberRef × List Insn)
  fields : List MemberRef
  constants : List (MemberRef × Int32)
  held? : MemberRef → Option Value

/-- Whether access flags are those of a static member. -/
def isStatic (access : UInt16) : Bool :=
  access &&& ClassFile.Access.staticFlag != 0

/-- The int that a field holds from the start. -/
def startInt? (constant : Option ClassFile.ConstantValue) : Option Int32 :=
  match constant with
  | some (.int n) => some n
  | _ => none

def Program.ofDecl (decl : ClassFile.ClassDecl) (held? : MemberRef → Option Value) : Program where
  methods := (decl.methods.filter fun method => isStatic method.access).map fun method =>
    (⟨decl.name, method.name, method.descriptor⟩, method.code)
  fields := (decl.fields.filter fun field => isStatic field.access).map fun field =>
    ⟨decl.name, field.name, field.descriptor⟩
  constants := (decl.fields.filter fun field => isStatic field.access).filterMap fun field =>
    (startInt? field.constant).map fun n => (⟨decl.name, field.name, field.descriptor⟩, n)
  held? := held?

/-- The program of a class file, with the instructions that its code is decoded to. -/
def Program.ofFile (file : ClassFile) (held? : MemberRef → Option Value) : Program where
  methods := (file.methods.filter fun method => isStatic method.access).map fun method =>
    (⟨file.thisClass, method.name, method.descriptor⟩,
      match method.code? with
      | some code => code.instructions.map ClassFile.Code.Located.insn
      | none => [])
  fields := (file.fields.filter fun field => isStatic field.access).map fun field =>
    ⟨file.thisClass, field.name, field.descriptor⟩
  constants := (file.fields.filter fun field => isStatic field.access).filterMap fun field =>
    (startInt? field.constantValue?).map fun n =>
      (⟨file.thisClass, field.name, field.descriptor⟩, n)
  held? := held?

/-- A method that has been entered: its instructions that are left, its operands with the last one
first, and its local slots. -/
structure Frame where
  code : List Insn
  stack : List Value
  locals : UInt16 → Option Value

/-- A method that has just been entered, with its arguments in the first local slots. -/
def Frame.enter (code : List Insn) (arguments : List Value) : Frame :=
  ⟨code, [], fun slot => arguments[slot.toNat]?⟩

/-- The frames, the running one first, the arrays made so far, the stores to static fields so far,
and the operands left behind by each method that has returned so far. -/
structure State where
  frames : List Frame
  heap : List (List Int32)
  stores : List (MemberRef × Value)
  leftovers : List (List Value)

namespace Frame

/-- Puts an operand on the stack. -/
def push (frame : Frame) (value : Value) : Frame :=
  { frame with stack := value :: frame.stack }

def pop (frame : Frame) : Except Fault (Value × Frame) :=
  match frame.stack with
  | value :: stack => .ok (value, { frame with stack })
  | [] => .error .emptyStack

def popInt (frame : Frame) : Except Fault (Int32 × Frame) := do
  match ← frame.pop with
  | (.int n, frame) => .ok (n, frame)
  | (.array _, _) => .error .wrongKind

def popArray (frame : Frame) : Except Fault (Nat × Frame) := do
  match ← frame.pop with
  | (.array address, frame) => .ok (address, frame)
  | (.int _, _) => .error .wrongKind

/-- Takes the given number of operands off the stack, the one pushed first in front. -/
def popMany (frame : Frame) : Nat → Except Fault (List Value × Frame)
  | 0 => .ok ([], frame)
  | n + 1 => do
    let (last, frame) ← frame.pop
    let (values, frame) ← frame.popMany n
    .ok (values ++ [last], frame)

end Frame

/-- Whether a value can stand where a field of the given descriptor is meant. -/
def Value.fits (descriptor : String) : Value → Bool
  | int _ => descriptor == "I"
  | array _ => descriptor == "[I"

/-- The value that was stored to a field last. -/
def State.stored? (state : State) (field : MemberRef) : Option Value :=
  (state.stores.reverse.find? fun store => store.1 == field).map Prod.snd

/-- What a field reads as: what it is held at, what was stored to it last, or its constant. -/
def State.read? (program : Program) (state : State) (field : MemberRef) : Option Value :=
  (program.held? field).or
    ((state.stored? field).or ((program.constants.lookup field).map .int))

/-- Performs an instruction of the running frame, whose code is what follows the instruction. -/
def perform (program : Program) (state : State) (below : List Frame) (frame : Frame) :
    Insn → Except Fault State
  | .aload slot =>
    match frame.locals slot with
    | some (.array address) => .ok { state with frames := frame.push (.array address) :: below }
    | some (.int _) => .error .wrongKind
    | none => .error .unsetLocal
  | .iload slot =>
    match frame.locals slot with
    | some (.int n) => .ok { state with frames := frame.push (.int n) :: below }
    | some (.array _) => .error .wrongKind
    | none => .error .unsetLocal
  | .istore slot => do
    let (n, frame) ← frame.popInt
    let locals := fun other => if other = slot then some (.int n) else frame.locals other
    .ok { state with frames := { frame with locals } :: below }
  | .pushInt n => .ok { state with frames := frame.push (.int n) :: below }
  | .iadd => do
    let (second, frame) ← frame.popInt
    let (first, frame) ← frame.popInt
    .ok { state with frames := frame.push (.int (first + second)) :: below }
  | .dup => do
    let (value, frame) ← frame.pop
    .ok { state with frames := (frame.push value).push value :: below }
  | .newIntArray => do
    let (length, frame) ← frame.popInt
    if length.toInt < 0 then .error .negativeLength
    else
      .ok
        { state with
          frames := frame.push (.array state.heap.length) :: below
          heap := state.heap ++ [List.replicate length.toInt.toNat 0] }
  | .iastore => do
    let (n, frame) ← frame.popInt
    let (index, frame) ← frame.popInt
    let (address, frame) ← frame.popArray
    let elements := state.heap.getD address []
    if 0 ≤ index.toInt ∧ index.toInt.toNat < elements.length then
      .ok
        { state with
          frames := frame :: below
          heap := state.heap.set address (elements.set index.toInt.toNat n) }
    else .error .outsideArray
  | .getStatic field =>
    match state.read? program field with
    | some value =>
      if value.fits field.descriptor then .ok { state with frames := frame.push value :: below }
      else .error .wrongKind
    | none => .error .unknownField
  | .putStatic field => do
    let (value, frame) ← frame.pop
    if field ∉ program.fields then .error .unknownField
    else if value.fits field.descriptor then
      .ok { state with frames := frame :: below, stores := state.stores ++ [(field, value)] }
    else .error .wrongKind
  | .invokeStatic method =>
    match program.methods.lookup method, ClassFile.Descriptor.methodSlots method.descriptor with
    | some code, .ok (slots, _) => do
      let (arguments, frame) ← frame.popMany slots
      .ok { state with frames := Frame.enter code arguments :: frame :: below }
    | _, _ => .error .unknownMethod
  | .invokeSpecial _ => .error .unknownMethod
  | .returnVoid =>
    .ok { state with frames := below, leftovers := state.leftovers ++ [frame.stack] }

/-- One step: the running frame performs its next instruction. -/
def step (program : Program) (state : State) : Except Fault State :=
  match state.frames with
  | [] => .error .finished
  | frame :: below =>
    match frame.code with
    | [] => .error .endOfCode
    | insn :: code => perform program state below { frame with code } insn

/-- Whether the machine gets from one state to another without a fault. -/
abbrev Leads (program : Program) : State → State → Prop :=
  Relation.ReflTransGen fun state next => step program state = .ok next

/-- The name of the method that a class is initialized by. -/
def initializerName : String := "<clinit>"

/-- The state in which the initialization of a class starts; without an initializer there is
nothing to run. -/
def start (program : Program) (className : String) : State where
  frames :=
    match program.methods.lookup ⟨className, initializerName, "()V"⟩ with
    | some code => [Frame.enter code []]
    | none => []
  heap := []
  stores := []
  leftovers := []

/-- Whether the initialization of a class ends in the given state, all methods having returned. -/
def Initializes (program : Program) (className : String) (last : State) : Prop :=
  Leads program (start program className) last ∧ last.frames = []

/-- What a value stands for: an int, or the elements of an array. -/
def State.content? (state : State) : Value → Option SymbolValue
  | .int n => some (.int n)
  | .array address => state.heap[address]?.map .array

end ResourceClasses.Machine
