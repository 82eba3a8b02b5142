import ResourceClasses.Proofs.Machine.Run

/-!
Assignments on the machine: the code of a symbol stores its value in its field, an array element by
element into a fresh one, and leaves the operands as they were.
-/

set_option autoImplicit false

namespace ResourceClasses

open ClassFile (Insn MemberRef)

/-- An int that is numbered with the package id, as it is when the package id reads `q`. -/
def rebased (shared : Option SharedId) (q value : Int32) : Int32 :=
  match shared with
  | some shared => if shared.owns value then q + (value - shared.packageId) else value
  | none => value

/-- The value of a symbol as it is when the package id reads `q`. -/
def SymbolValue.rebased (shared : Option SharedId) (q : Int32) : SymbolValue → SymbolValue
  | int n => .int (ResourceClasses.rebased shared q n)
  | array values => .array (values.map (ResourceClasses.rebased shared q))

def Symbol.field (className : String) (symbol : Symbol) : MemberRef :=
  ⟨className, symbol.name, symbol.descriptor⟩

/-- Whether an array index reaches all elements of a value. -/
def SymbolValue.Addressable : SymbolValue → Prop
  | int _ => True
  | array values => values.length < 0x80000000

namespace Machine

/-- The state after all of some symbols have been assigned in order. -/
def State.assignedAll (state : State) (className : String) (shared : Option SharedId)
    (q : Int32) (symbols : List Symbol) : State :=
  symbols.foldl
    (fun state symbol =>
      state.assigned (symbol.field className) (symbol.value.rebased shared q)) state

/-- Whether local slot one holds the package id, if there is one to hold. -/
def HoldsPackageId (shared : Option SharedId) (q : Int32) (locals : UInt16 → Option Value) :
    Prop :=
  shared.isSome → locals 1 = some (.int q)

section

variable {program : Program} {state last : State} {below : List Frame} {code : List Insn}
  {stack : List Value} {locals : UInt16 → Option Value} {shared : Option SharedId} {q : Int32}

theorem leads_pushValue (holds : HoldsPackageId shared q locals) (value : Int32)
    (rest : Leads program
      (state.running ⟨code, .int (rebased shared q value) :: stack, locals⟩ below) last) :
    Leads program
      (state.running ⟨ResourceField.pushValue shared value ++ code, stack, locals⟩ below)
      last := by
  cases shared with
  | none => exact leads_pushInt value rest
  | some shared =>
    by_cases owned : shared.owns value
    · have held : locals 1 = some (.int q) := holds rfl
      simp only [rebased, owned, if_true] at rest
      simp only [ResourceField.pushValue, owned, if_true, List.cons_append, List.nil_append]
      apply leads_iload held
      apply leads_pushInt
      apply leads_iadd
      exact rest
    · simp only [rebased, owned, if_false, Bool.false_eq_true] at rest
      simp only [ResourceField.pushValue, owned, if_false, Bool.false_eq_true,
        List.cons_append, List.nil_append]
      exact leads_pushInt value rest

/-- Storing the elements of an array one by one fills up the array from where it is filled. -/
theorem leads_storeElements (holds : HoldsPackageId shared q locals) {address : Nat}
    (filled values : List Int32)
    (array : state.heap[address]? = some (filled ++ List.replicate values.length 0))
    (small : filled.length + values.length < 0x80000000)
    (rest : Leads program
      (({ state with
          heap := state.heap.set address (filled ++ values.map (rebased shared q)) }).running
        ⟨code, .array address :: stack, locals⟩ below) last) :
    Leads program
      (state.running
        ⟨(values.zipIdx filled.length).flatMap (Symbol.storeElement shared) ++ code,
          .array address :: stack, locals⟩ below) last := by
  -- The array holds the elements that are stored already and zeros for those that are left.
  induction values generalizing state filled with
  | nil =>
    rw [List.length_nil, List.replicate_zero, List.append_nil] at array
    obtain ⟨inside, found⟩ := List.getElem?_eq_some_iff.mp array
    have same : state.heap.set address filled = state.heap := by
      rw [← found, List.set_getElem_self]
    simpa [same] using rest
  | cons value later ih =>
    have index : (Int32.ofNat filled.length).toInt = filled.length := by
      apply Int32.toInt_ofNat_of_lt
      simp only [List.length_cons] at small
      omega
    have split : ((value :: later).zipIdx filled.length).flatMap (Symbol.storeElement shared) =
        .dup :: .pushInt (Int32.ofNat filled.length) ::
          (ResourceField.pushValue shared value ++
            .iastore :: (later.zipIdx (filled.length + 1)).flatMap
              (Symbol.storeElement shared)) := by
      rw [List.zipIdx_cons, List.flatMap_cons]
      simp [Symbol.storeElement]
    rw [split, List.cons_append, List.cons_append, List.append_assoc, List.cons_append]
    apply leads_dup
    apply leads_pushInt
    apply leads_pushValue holds
    apply leads_iastore array (by omega)
    · simp [index]
    have stored :
        (filled ++ List.replicate (value :: later).length 0).set
            (Int32.ofNat filled.length).toInt.toNat (rebased shared q value) =
          (filled ++ [rebased shared q value]) ++ List.replicate later.length 0 := by
      rw [index, Int.toNat_natCast, List.length_cons, List.replicate_succ,
        List.set_append_right _ _ (Nat.le_refl _), Nat.sub_self, List.set_cons_zero]
      simp
    have filled_length : (filled ++ [rebased shared q value]).length = filled.length + 1 := by
      simp
    rw [stored, ← filled_length]
    apply ih (filled ++ [rebased shared q value])
    · obtain ⟨inside, -⟩ := List.getElem?_eq_some_iff.mp array
      simp [inside]
    · simp only [List.length_append, List.length_cons, List.length_nil] at small ⊢
      omega
    · simpa using rest

theorem leads_assign (holds : HoldsPackageId shared q locals) {className : String}
    (symbol : Symbol) (declared : symbol.field className ∈ program.fields)
    (small : symbol.value.Addressable)
    (rest : Leads program
      ((state.assigned (symbol.field className) (symbol.value.rebased shared q)).running
        ⟨code, stack, locals⟩ below) last) :
    Leads program
      (state.running ⟨symbol.assign className shared ++ code, stack, locals⟩ below) last := by
  obtain ⟨name, value, dependency⟩ := symbol
  cases value with
  | int n =>
    simp only [Symbol.assign, Symbol.push, List.append_assoc, List.cons_append, List.nil_append]
    apply leads_pushValue holds
    exact leads_putStatic declared rfl rest
  | array values =>
    have length : (Int32.ofNat values.length).toInt = values.length :=
      Int32.toInt_ofNat_of_lt small
    simp only [Symbol.assign, Symbol.push, List.append_assoc, List.cons_append, List.nil_append]
    apply leads_pushInt
    apply leads_newIntArray (by omega)
    apply leads_storeElements holds [] values
    · simp [length]
    · simpa [SymbolValue.Addressable] using small
    apply leads_putStatic declared rfl
    simpa [State.assigned, SymbolValue.rebased] using rest

theorem leads_assignAll (holds : HoldsPackageId shared q locals) {className : String}
    (symbols : List Symbol)
    (declared : ∀ symbol ∈ symbols, symbol.field className ∈ program.fields)
    (small : ∀ symbol ∈ symbols, symbol.value.Addressable)
    (rest : Leads program
      ((state.assignedAll className shared q symbols).running ⟨code, stack, locals⟩ below)
      last) :
    Leads program
      (state.running ⟨symbols.flatMap (Symbol.assign className shared) ++ code, stack, locals⟩
        below) last := by
  induction symbols generalizing state with
  | nil => exact rest
  | cons symbol later ih =>
    rw [List.flatMap_cons, List.append_assoc]
    apply leads_assign holds symbol (declared symbol List.mem_cons_self)
      (small symbol List.mem_cons_self)
    apply ih
    · intro other member
      exact declared other (List.mem_cons_of_mem symbol member)
    · intro other member
      exact small other (List.mem_cons_of_mem symbol member)
    · exact rest

end

end Machine

end ResourceClasses
