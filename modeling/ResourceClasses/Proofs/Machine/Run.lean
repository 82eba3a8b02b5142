import ResourceClasses.Proofs.Machine.Basic

/-!
Runs of the machine: what single instructions do when their operands are there, and what a list of
stores leaves in the fields.
-/

set_option autoImplicit false

namespace ResourceClasses.Machine

open ClassFile (Insn MemberRef)

/-- The state in which a frame runs above others, the rest being as given. -/
def State.running (state : State) (frame : Frame) (below : List Frame) : State :=
  { state with frames := frame :: below }

/-- The state after a field has been assigned; an array is made for the elements of an array. -/
def State.assigned (state : State) (field : MemberRef) : SymbolValue → State
  | .int n => { state with stores := state.stores ++ [(field, .int n)] }
  | .array elements =>
    { state with
      heap := state.heap ++ [elements]
      stores := state.stores ++ [(field, .array state.heap.length)] }

section

variable {program : Program} {state last : State} {below : List Frame} {code : List Insn}
  {stack : List Value} {locals : UInt16 → Option Value}

theorem leads_pushInt (n : Int32)
    (rest : Leads program (state.running ⟨code, .int n :: stack, locals⟩ below) last) :
    Leads program (state.running ⟨.pushInt n :: code, stack, locals⟩ below) last :=
  .head rfl rest

theorem leads_iload {slot : UInt16} {n : Int32} (local_eq : locals slot = some (.int n))
    (rest : Leads program (state.running ⟨code, .int n :: stack, locals⟩ below) last) :
    Leads program (state.running ⟨.iload slot :: code, stack, locals⟩ below) last := by
  refine .head ?_ rest
  simp only [step, State.running, perform, local_eq, Frame.push]

theorem leads_istore (slot : UInt16) (n : Int32)
    (rest : Leads program
      (state.running
        ⟨code, stack, fun other => if other = slot then some (.int n) else locals other⟩ below)
      last) :
    Leads program (state.running ⟨.istore slot :: code, .int n :: stack, locals⟩ below) last :=
  .head rfl rest

theorem leads_iadd (first second : Int32)
    (rest : Leads program (state.running ⟨code, .int (first + second) :: stack, locals⟩ below)
      last) :
    Leads program
      (state.running ⟨.iadd :: code, .int second :: .int first :: stack, locals⟩ below) last :=
  .head rfl rest

theorem leads_dup (value : Value)
    (rest : Leads program (state.running ⟨code, value :: value :: stack, locals⟩ below) last) :
    Leads program (state.running ⟨.dup :: code, value :: stack, locals⟩ below) last :=
  .head rfl rest

theorem leads_newIntArray {length : Int32} (nonnegative : 0 ≤ length.toInt)
    (rest : Leads program
      (({ state with heap := state.heap ++ [List.replicate length.toInt.toNat 0] }).running
        ⟨code, .array state.heap.length :: stack, locals⟩ below) last) :
    Leads program (state.running ⟨.newIntArray :: code, .int length :: stack, locals⟩ below)
      last := by
  refine .head ?_ rest
  have not_negative : ¬length.toInt < 0 := by omega
  simp only [step, State.running, perform, Frame.popInt, Frame.pop, Frame.push, bind, Except.bind,
    if_neg not_negative]

theorem leads_iastore {n index : Int32} {address : Nat} {elements : List Int32}
    (array : state.heap[address]? = some elements) (nonnegative : 0 ≤ index.toInt)
    (inside : index.toInt.toNat < elements.length)
    (rest : Leads program
      (({ state with heap := state.heap.set address (elements.set index.toInt.toNat n) }).running
        ⟨code, stack, locals⟩ below) last) :
    Leads program
      (state.running
        ⟨.iastore :: code, .int n :: .int index :: .array address :: stack, locals⟩ below)
      last := by
  refine .head ?_ rest
  have found : state.heap.getD address [] = elements := by
    rw [List.getD_eq_getElem?_getD, array, Option.getD_some]
  simp only [step, State.running, perform, Frame.popInt, Frame.popArray, Frame.pop, bind,
    Except.bind, found, if_pos (And.intro nonnegative inside)]

theorem leads_getStatic {field : MemberRef} {value : Value}
    (held : program.held? field = some value) (fits : value.fits field.descriptor = true)
    (rest : Leads program (state.running ⟨code, value :: stack, locals⟩ below) last) :
    Leads program (state.running ⟨.getStatic field :: code, stack, locals⟩ below) last := by
  refine .head ?_ rest
  simp only [step, State.running, perform, State.read?, held, Option.some_or, fits, if_true,
    Frame.push]

theorem leads_putStatic {field : MemberRef} {value : Value} (declared : field ∈ program.fields)
    (fits : value.fits field.descriptor = true)
    (rest : Leads program
      (({ state with stores := state.stores ++ [(field, value)] }).running ⟨code, stack, locals⟩
        below) last) :
    Leads program (state.running ⟨.putStatic field :: code, value :: stack, locals⟩ below)
      last := by
  refine .head ?_ rest
  simp only [step, State.running, perform, Frame.pop, bind, Except.bind, declared,
    not_true_eq_false, if_false, fits, if_true]

theorem leads_invokeStatic {method : MemberRef} {body : List Insn}
    (found : program.methods.lookup method = some body) (descriptor : method.descriptor = "()V")
    (rest : Leads program
      (state.running (Frame.enter body []) (⟨code, stack, locals⟩ :: below)) last) :
    Leads program (state.running ⟨.invokeStatic method :: code, stack, locals⟩ below) last := by
  refine .head ?_ rest
  simp only [step, State.running, perform, found, descriptor,
    ClassFile.Descriptor.methodSlots_void, Frame.popMany, bind, Except.bind]

theorem leads_returnVoid
    (rest : Leads program
      { state with frames := below, leftovers := state.leftovers ++ [stack] } last) :
    Leads program (state.running ⟨.returnVoid :: code, stack, locals⟩ below) last :=
  .head rfl rest

end

end ResourceClasses.Machine
