import ResourceClasses.Proofs.Generation.Classes
import ResourceClasses.Proofs.Machine.Assignment

/-!
Class initialization: the chain of a class of a resource type runs to its end and assigns all fields
that have no constant, in their order and with their values.
-/

set_option autoImplicit false

namespace ResourceClasses

open ClassFile (ClassDecl FieldDecl Insn MemberRef)
open Generation

namespace Machine

def Value.address? : Value → Option Nat
  | int _ => none
  | array address => some address

/-- The arrays that have been stored to fields, in order. -/
def State.addresses (state : State) : List Nat :=
  state.stores.filterMap fun store => store.2.address?

/-- The fields that have been stored to, in order, with what the stored values stand for. -/
def State.outcome (state : State) : List (MemberRef × Option SymbolValue) :=
  state.stores.map fun store => (store.1, state.content? store.2)

/-- Whether the arrays stored to fields are all arrays made so far, each stored once. -/
def State.Tidy (state : State) : Prop :=
  state.addresses = List.range state.heap.length

theorem State.Tidy.assigned {state : State} (tidy : state.Tidy) (field : MemberRef)
    (value : SymbolValue) : (state.assigned field value).Tidy := by
  unfold State.Tidy State.addresses at *
  cases value with
  | int n => simpa [State.assigned, Value.address?] using tidy
  | array elements =>
    simp only [State.assigned, List.filterMap_append, tidy, List.length_append,
      List.length_singleton, List.range_succ]
    rfl

theorem State.Tidy.outcome_assigned {state : State} (tidy : state.Tidy) (field : MemberRef)
    (value : SymbolValue) :
    (state.assigned field value).outcome = state.outcome ++ [(field, some value)] := by
  unfold State.outcome
  cases value with
  | int n => simp [State.assigned, State.content?]
  | array elements =>
    simp only [State.assigned, List.map_append, List.map_cons, List.map_nil]
    congr 1
    · apply List.map_congr_left
      rintro ⟨other, stored⟩ member
      cases stored with
      | int n => rfl
      | array address =>
        have known : address ∈ state.addresses :=
          List.mem_filterMap.mpr ⟨(other, .array address), member, rfl⟩
        have inside : address < state.heap.length := by
          rw [tidy] at known
          exact List.mem_range.mp known
        simp only [State.content?, List.getElem?_append_left inside]
    · simp [State.content?]

theorem State.Tidy.assignedAll {state : State} (tidy : state.Tidy) (className : String)
    (shared : Option SharedId) (q : Int32) (symbols : List Symbol) :
    (state.assignedAll className shared q symbols).Tidy ∧
      (state.assignedAll className shared q symbols).outcome =
        state.outcome ++ symbols.map fun symbol =>
          (symbol.field className, some (symbol.value.rebased shared q)) := by
  induction symbols generalizing state with
  | nil => exact ⟨tidy, by simp [State.assignedAll]⟩
  | cons symbol later ih =>
    obtain ⟨later_tidy, later_outcome⟩ := ih (tidy.assigned (symbol.field className)
      (symbol.value.rebased shared q))
    refine ⟨later_tidy, ?_⟩
    rw [State.assignedAll, List.foldl_cons, ← State.assignedAll, later_outcome,
      tidy.outcome_assigned, List.append_assoc]
    rfl

def State.blank : State :=
  ⟨[], [], [], []⟩

/-- The state after some methods have returned to others, none of which left an operand. -/
def State.returned (state : State) (count : Nat) (below : List Frame) : State :=
  { state with frames := below, leftovers := state.leftovers ++ List.replicate count [] }

@[simp]
theorem outcome_returned (state : State) (count : Nat) (below : List Frame) :
    (state.returned count below).outcome = state.outcome := rfl

theorem leftovers_assignedAll (state : State) (className : String) (shared : Option SharedId)
    (q : Int32) (symbols : List Symbol) :
    (state.assignedAll className shared q symbols).leftovers = state.leftovers := by
  induction symbols generalizing state with
  | nil => rfl
  | cons symbol later ih =>
    rw [State.assignedAll, List.foldl_cons, ← State.assignedAll, ih]
    obtain ⟨name, value, dependency⟩ := symbol
    cases value <;> rfl

section

variable {program : Program} {state last : State} {below : List Frame} {code : List Insn}
  {stack : List Value} {shared : Option SharedId} {q : Int32} {className : String}

theorem leads_prologue {locals : UInt16 → Option Value}
    (held : ∀ found, shared = some found → program.held? found.field = some (.int q))
    (rest : ∀ locals, HoldsPackageId shared q locals →
      Leads program (state.running ⟨code, stack, locals⟩ below) last) :
    Leads program (state.running ⟨prologue shared ++ code, stack, locals⟩ below) last := by
  cases shared with
  | none => exact rest locals (by simp [HoldsPackageId])
  | some found =>
    simp only [prologue, List.cons_append, List.nil_append]
    apply leads_getStatic (held found rfl) rfl
    apply leads_istore
    apply rest
    intro _
    rfl

/-- A method of a chain reads the package id and assigns its fields before its last calls. -/
theorem leads_method {method : InitializerMethod Symbol}
    (held : ∀ found, shared = some found → program.held? found.field = some (.int q))
    (declared : ∀ symbol ∈ method.fields, symbol.field className ∈ program.fields)
    (small : ∀ symbol ∈ method.fields, symbol.value.Addressable)
    (rest : ∀ locals, Leads program
      ((state.assignedAll className shared q method.fields).running
        ⟨tail className method.next, [], locals⟩ below) last) :
    Leads program
      (state.running (Frame.enter (method.declare className shared).code []) below) last := by
  apply leads_prologue held
  intro locals holds
  exact leads_assignAll holds method.fields declared small (rest locals)

theorem assignedAll_append (state : State) (first second : List Symbol) :
    state.assignedAll className shared q (first ++ second) =
      (state.assignedAll className shared q first).assignedAll className shared q second :=
  List.foldl_append

/-- The methods of a chain from one of them on: each assigns its fields, calls the next one, and
returns after it. -/
theorem leads_chain {method : InitializerMethod Symbol} {methods : List (InitializerMethod Symbol)}
    {ordinal start : Nat} {blocks : List (Block Symbol)}
    (linked : linkAfter [] ordinal start blocks = method :: methods)
    (found : ∀ method ∈ linkAfter [] ordinal start blocks,
      program.methods.lookup (methodRef className method.ordinal) =
        some (method.declare className shared).code)
    (held : ∀ found, shared = some found → program.held? found.field = some (.int q))
    (declared : ∀ symbol ∈ blocks.flatMap Block.items,
      symbol.field className ∈ program.fields)
    (small : ∀ symbol ∈ blocks.flatMap Block.items, symbol.value.Addressable)
    (rest : Leads program
      ((state.assignedAll className shared q (blocks.flatMap Block.items)).returned
        blocks.length below) last) :
    Leads program
      (state.running (Frame.enter (method.declare className shared).code []) below) last := by
  -- The next method returns to this one, so the induction is for any frames below and any end.
  induction blocks generalizing ordinal start method methods state below last with
  | nil => cases linked
  | cons block later ih =>
    rw [linkAfter_cons, List.cons.injEq] at linked
    obtain ⟨rfl, rfl⟩ := linked
    rw [linkAfter_cons] at found
    rw [List.flatMap_cons] at declared small rest
    apply leads_method held
    · intro symbol member
      exact declared symbol (List.mem_append_left _ member)
    · intro symbol member
      exact small symbol (List.mem_append_left _ member)
    intro locals
    cases later with
    | nil =>
      apply leads_returnVoid
      simpa [State.returned] using rest
    | cons next others =>
      have called := found _ (List.mem_cons_of_mem _
        (by rw [linkAfter_cons]; exact List.mem_cons_self))
      apply leads_invokeStatic called rfl
      apply ih (linkAfter_cons _ _ _ _)
      · intro method member
        exact found method (List.mem_cons_of_mem _ member)
      · intro symbol member
        exact declared symbol (List.mem_append_right _ member)
      · intro symbol member
        exact small symbol (List.mem_append_right _ member)
      · rw [← assignedAll_append]
        change Leads program (State.running (State.returned _ _ below) _ below) last
        apply leads_returnVoid
        simpa [State.returned, List.replicate_succ'] using rest

end

/-- What is held outside of a class: the package id by the field of the shared id. -/
def heldPackageId (shared : Option SharedId) (q : Int32) (field : MemberRef) : Option Value :=
  match shared with
  | some found => if field = found.field then some (.int q) else none
  | none => none

end Machine

open Machine

/-- Whether code has to assign the field of a symbol: arrays always, and ints unless they are final
and keep their value. -/
def Symbol.isAssigned (config : Config) (symbol : Symbol) : Bool :=
  match symbol.value with
  | .int _ => !config.finalFields || config.sharedId.isSome
  | .array _ => true

/-- Whether a field is the static field of a symbol, with its value as a constant unless code
assigns it. -/
structure Symbol.DeclaredAs (config : Config) (symbol : Symbol) (field : FieldDecl) : Prop where
  name_eq : field.name = symbol.name
  descriptor_eq : field.descriptor = symbol.descriptor
  static : isStatic field.access = true
  assigned : symbol.isAssigned config = true → field.constant = none
  constant : symbol.isAssigned config = false →
    ∃ n, symbol.value = .int n ∧ field.constant = some (.int n)

theorem Symbol.declaredAs_declare (config : Config) (symbol : Symbol) :
    symbol.DeclaredAs config (symbol.declare config) := by
  obtain ⟨name, value, dependency⟩ := symbol
  refine ⟨rfl, rfl, ?_, ?_, ?_⟩
  · cases final : config.finalFields <;> simp [Symbol.declare, final] <;> decide
  · intro assigned
    cases value with
    | int n =>
      simp only [isAssigned, Bool.or_eq_true, Bool.not_eq_true'] at assigned
      rcases assigned with final | moved
      · simp [declare, constant?, final]
      · simp [declare, constant?, Option.isNone_eq_false_iff.mpr moved]
    | array values => rfl
  · intro kept
    cases value with
    | int n =>
      simp only [isAssigned, Bool.or_eq_false_iff, Bool.not_eq_false'] at kept
      obtain ⟨final, unmoved⟩ := kept
      exact ⟨n, rfl, by simp [declare, constant?, final, Option.isSome_eq_false_iff.mp unmoved]⟩
    | array values => simp [isAssigned] at kept

theorem deferred_eq_filter (config : Config) (symbols : List Symbol) :
    deferred config symbols = symbols.filter (Symbol.isAssigned config) := by
  apply List.filter_congr
  intro symbol _
  have declared := symbol.declaredAs_declare config
  cases assigned : symbol.isAssigned config with
  | true =>
    simp [ResourceField.isDeferred, ResourceField.declare, declared.assigned assigned]
  | false =>
    obtain ⟨n, -, constant⟩ := declared.constant assigned
    simp [ResourceField.isDeferred, ResourceField.declare, constant]

theorem lookup_of_nodup {α β : Type} [DecidableEq α] {pairs : List (α × β)}
    (nodup : (pairs.map Prod.fst).Nodup) {key : α} {value : β} (member : (key, value) ∈ pairs) :
    pairs.lookup key = some value := by
  induction pairs with
  | nil => simp at member
  | cons first rest ih =>
    rw [List.map_cons, List.nodup_cons] at nodup
    rcases List.mem_cons.mp member with rfl | later
    · exact List.lookup_cons_self
    · have different : (key == first.1) = false := by
        rw [beq_eq_false_iff_ne]
        rintro rfl
        exact nodup.1 (List.mem_map.mpr ⟨(first.1, value), later, rfl⟩)
      rw [List.lookup_cons, different]
      exact ih nodup.2 later

section

variable {outer directory : String} {type : ResourceType} {symbols : List Symbol}
  {config : Config} {blocks : List (Block Symbol)}

/-- The static methods of a class of a resource type are those of its chain. -/
theorem methods_ofDecl_innerClassOf (held? : MemberRef → Option Value) :
    (Program.ofDecl (innerClassOf outer type symbols config blocks) held?).methods =
      (link blocks).map fun method =>
        (methodRef (Name.inner outer type) method.ordinal,
          (method.declare (Name.inner outer type) config.sharedId).code) := by
  have chain_static : ∀ method ∈ (link blocks).map
      (·.declare (Name.inner outer type) config.sharedId), isStatic method.access = true := by
    intro method member
    obtain ⟨planned, -, rfl⟩ := List.mem_map.mp member
    cases ordinal : planned.ordinal <;>
      simp [InitializerMethod.declare, methodAccess, ordinal] <;> decide
  have constructor_bound : isStatic Generation.constructor.access = false := by decide
  simp only [Program.ofDecl, innerClassOf]
  rw [List.filter_cons_of_neg (by simp [constructor_bound]), List.filter_eq_self.mpr chain_static,
    List.map_map]
  rfl

theorem field_mem_ofDecl {symbol : Symbol} (member : symbol ∈ symbols)
    (held? : MemberRef → Option Value) :
    symbol.field (Name.inner outer type) ∈
      (Program.ofDecl (innerClassOf outer type symbols config blocks) held?).fields := by
  have declared := symbol.declaredAs_declare config
  refine List.mem_map.mpr ⟨symbol.declare config, ?_, ?_⟩
  · refine List.mem_filter.mpr ⟨?_, declared.static⟩
    exact List.mem_map.mpr ⟨symbol, member, rfl⟩
  · rw [declared.name_eq, declared.descriptor_eq]
    rfl

/-- What fits into a method has no more elements than an index reaches. -/
theorem addressable_of_fits {prologue : Nat} {sharedId : Bool} {block : Block Symbol}
    (fits : block.Fits prologue (Symbol.maxCodeSize sharedId)) {symbol : Symbol}
    (member : symbol ∈ block.items) : symbol.value.Addressable := by
  have size_le := fits.size_item_le member
  obtain ⟨name, value, dependency⟩ := symbol
  cases value with
  | int n => trivial
  | array values =>
    have few := (maxCodeSize_array_of_le size_le).1
    simp only [SymbolValue.Addressable]
    omega

/-- Each method of a chain is found in the class under its own name. -/
theorem lookup_method (held? : MemberRef → Option Value) {method : InitializerMethod Symbol}
    (member : method ∈ link blocks) :
    (Program.ofDecl (innerClassOf outer type symbols config blocks) held?).methods.lookup
        (methodRef (Name.inner outer type) method.ordinal) =
      some (method.declare (Name.inner outer type) config.sharedId).code := by
  rw [methods_ofDecl_innerClassOf]
  apply lookup_of_nodup
  · rw [List.map_map]
    have ordinals := map_ordinal_linkAfter 0 0 blocks
    change (List.map (methodRef (Name.inner outer type) ∘ InitializerMethod.ordinal)
      (link blocks)).Nodup
    rw [← List.map_map, link, ordinals]
    apply List.Nodup.map
    · intro first second same
      exact methodName_injective (congrArg MemberRef.name same)
    · exact List.nodup_range'
  · exact List.mem_map.mpr ⟨method, member, rfl⟩

/-- The chain of a class of a resource type runs from its first method to its end. -/
theorem initializes_innerClassOf (q : Int32)
    (fits : ∀ block ∈ blocks, block.Fits (prologueSize config.sharedId.isSome)
      (Symbol.maxCodeSize config.sharedId.isSome))
    (known : ∀ symbol ∈ blocks.flatMap Block.items, symbol ∈ symbols) :
    let program :=
      Program.ofDecl (innerClassOf outer type symbols config blocks)
        (heldPackageId config.sharedId q)
    let className := Name.inner outer type
    Initializes program className
      ((State.blank.assignedAll className config.sharedId q
        (blocks.flatMap Block.items)).returned blocks.length []) := by
  intro program className
  have found : ∀ method ∈ link blocks,
      program.methods.lookup (methodRef className method.ordinal) =
        some (method.declare className config.sharedId).code :=
    fun method member => lookup_method _ member
  refine ⟨?_, rfl⟩
  cases blocks with
  | nil =>
    have none_found : program.methods = [] := methods_ofDecl_innerClassOf _
    rw [start, none_found, List.lookup_nil]
    exact .refl
  | cons block later =>
    have linked := linkAfter_cons 0 0 block later
    have entered := found _ (by rw [link, linked]; exact List.mem_cons_self)
    have start_eq : start program className =
        State.blank.running
          (Frame.enter (InitializerMethod.declare className config.sharedId
            ⟨0, block.size, 0, block.items, if later.isEmpty then none else some 1⟩).code [])
          [] := by
      have first : program.methods.lookup ⟨className, initializerName, "()V"⟩ = _ := entered
      rw [start, first]
      rfl
    rw [start_eq]
    apply leads_chain linked found
    · intro shared some_shared
      change heldPackageId config.sharedId q shared.field = some (.int q)
      rw [some_shared, heldPackageId, if_pos rfl]
    · intro symbol member
      exact field_mem_ofDecl (known symbol member) _
    · intro symbol member
      obtain ⟨block, inside, member⟩ := List.mem_flatMap.mp member
      exact addressable_of_fits (fits block inside) member
    · exact .refl

/-- When the chain of a class has run, the fields that have no constant are assigned in order, and
all arrays that were made are in fields. -/
theorem initializes_of_cut (q : Int32)
    (cutting : cut (prologueSize config.sharedId.isSome)
      (ResourceField.maxCodeSize config.sharedId.isSome) (deferred config symbols) = .ok blocks) :
    let last :=
      (State.blank.assignedAll (Name.inner outer type) config.sharedId q
        (blocks.flatMap Block.items)).returned blocks.length []
    Initializes
        (Program.ofDecl (innerClassOf outer type symbols config blocks)
          (heldPackageId config.sharedId q))
        (Name.inner outer type) last ∧
      last.outcome =
        (symbols.filter (Symbol.isAssigned config)).map (fun symbol =>
          (symbol.field (Name.inner outer type),
            some (symbol.value.rebased config.sharedId q))) ∧
      last.Tidy := by
  obtain ⟨fits, items_eq⟩ := cut_fits (addable_symbols _ _) cutting
  have known : ∀ symbol ∈ blocks.flatMap Block.items, symbol ∈ symbols := by
    intro symbol member
    rw [items_eq] at member
    exact List.mem_of_mem_filter member
  have blank_tidy : State.blank.Tidy := rfl
  obtain ⟨tidy, outcome⟩ := blank_tidy.assignedAll (Name.inner outer type) config.sharedId q
    (blocks.flatMap Block.items)
  refine ⟨initializes_innerClassOf q fits known, ?_, tidy⟩
  rw [← deferred_eq_filter, ← items_eq, outcome_returned]
  exact outcome

/-- An int and an array of which a shared id owns the int and one element. -/
def ownedSymbols : List Symbol :=
  [⟨"one", .int 0x7f010001, none⟩, ⟨"two", .array [5, 0x7f010002], none⟩]

def ownedConfig : Config :=
  { sharedId := some ⟨"a.Ids", 0x7f000000⟩ }

end

end ResourceClasses
