import ResourceClasses.Proofs.Generation.Initialization

/-!
Values after initialization: each field of a class of a resource type ends with the value of its
symbol, whether code or a constant gives it.
-/

set_option autoImplicit false

namespace ResourceClasses

open ClassFile (FieldDecl MemberRef)
open Generation

namespace Machine

/-- What a field of the class that was initialized stands for: what was stored to it last, or its
constant. -/
def State.value? (program : Program) (state : State) (field : MemberRef) : Option SymbolValue :=
  match state.stored? field with
  | some stored => state.content? stored
  | none => (program.constants.lookup field).map .int

section

variable {state : State} {field : MemberRef} {value : SymbolValue}

private theorem map_fst_outcome (state : State) :
    state.outcome.map Prod.fst = state.stores.map Prod.fst := by
  rw [State.outcome, List.map_map]
  rfl

private theorem stored?_of_mem (once : (state.outcome.map Prod.fst).Nodup)
    (assigned : (field, some value) ∈ state.outcome) :
    ∃ stored, state.stored? field = some stored ∧ state.content? stored = some value := by
  obtain ⟨⟨target, stored⟩, member, same⟩ := List.mem_map.mp assigned
  simp only [Prod.mk.injEq] at same
  obtain ⟨rfl, content⟩ := same
  refine ⟨stored, ?_, content⟩
  rw [map_fst_outcome] at once
  unfold State.stored?
  cases found : state.stores.reverse.find? fun store => store.1 == target with
  | none =>
    have never := List.find?_eq_none.mp found _ (List.mem_reverse.mpr member)
    simp at never
  | some last =>
    have known := List.mem_reverse.mp (List.mem_of_find?_eq_some found)
    have targeted := List.find?_some found
    rw [beq_iff_eq] at targeted
    rw [List.inj_on_of_nodup_map once known member targeted]
    rfl

private theorem stored?_eq_none (never : field ∉ state.outcome.map Prod.fst) :
    state.stored? field = none := by
  rw [map_fst_outcome] at never
  rw [State.stored?, Option.map_eq_none_iff, List.find?_eq_none]
  intro store member targeted
  exact never (List.mem_map.mpr ⟨store, List.mem_reverse.mp member, beq_iff_eq.mp targeted⟩)

end

private theorem keys_filterMap_sublist {α β γ : Type} (key : α → β) (value? : α → Option γ)
    (items : List α) :
    ((items.filterMap fun item => (value? item).map fun value => (key item, value)).map
      Prod.fst).Sublist (items.map key) := by
  induction items with
  | nil => exact .slnil
  | cons item rest ih =>
    rw [List.filterMap_cons, List.map_cons]
    cases value? item with
    | none => exact ih.cons _
    | some value => exact ih.cons_cons _

end Machine

open Machine

variable {outer : String} {type : ResourceType} {symbols : List Symbol} {config : Config}
  {blocks : List (Block Symbol)}

private theorem nodup_fields (className : String) (distinct : (symbols.map Symbol.name).Nodup) :
    (symbols.map (Symbol.field className)).Nodup := by
  apply List.Nodup.of_map MemberRef.name
  rw [List.map_map]
  exact distinct

private theorem rebased_of_kept (q : Int32) {symbol : Symbol}
    (kept : symbol.isAssigned config = false) :
    symbol.value.rebased config.sharedId q = symbol.value := by
  unfold Symbol.isAssigned at kept
  cases value : symbol.value with
  | array values => simp [value] at kept
  | int n =>
    simp only [value, Bool.or_eq_false_iff] at kept
    rw [Option.isSome_eq_false_iff, Option.isNone_iff_eq_none] at kept
    rw [kept.2]
    rfl

/-- The constant of a field that code does not assign is the value of its symbol. -/
private theorem lookup_constants (held? : MemberRef → Option Value)
    (distinct : (symbols.map Symbol.name).Nodup) {symbol : Symbol} (member : symbol ∈ symbols)
    (kept : symbol.isAssigned config = false) :
    ((Program.ofDecl (innerClassOf outer type symbols config blocks) held?).constants.lookup
      (symbol.field (Name.inner outer type))).map SymbolValue.int = some symbol.value := by
  have declared := symbol.declaredAs_declare config
  obtain ⟨n, value, constant⟩ := declared.constant kept
  have found : (Program.ofDecl (innerClassOf outer type symbols config blocks)
      held?).constants.lookup (symbol.field (Name.inner outer type)) = some n := by
    apply lookup_of_nodup
    · have static_only := ((symbols.map (Symbol.declare config)).filter_sublist
        (p := fun field => isStatic field.access)).map fun field : FieldDecl =>
          (⟨Name.inner outer type, field.name, field.descriptor⟩ : MemberRef)
      refine ((keys_filterMap_sublist _ _ _).trans static_only).nodup ?_
      rw [List.map_map]
      exact nodup_fields (Name.inner outer type) distinct
    · refine List.mem_filterMap.mpr ⟨symbol.declare config, ?_, ?_⟩
      · exact List.mem_filter.mpr ⟨List.mem_map.mpr ⟨symbol, member, rfl⟩, declared.static⟩
      · rw [constant]
        rfl
  rw [found, value]
  rfl

/-- Once a class of a resource type is initialized, each of its fields has the value of its
symbol. -/
theorem exists_values_of_cut (q : Int32) (distinct : (symbols.map Symbol.name).Nodup)
    (cutting : cut (prologueSize config.sharedId.isSome)
      (ResourceField.maxCodeSize config.sharedId.isSome) (deferred config symbols) = .ok blocks) :
    let program :=
      Program.ofDecl (innerClassOf outer type symbols config blocks)
        (heldPackageId config.sharedId q)
    ∃ last, Initializes program (Name.inner outer type) last ∧
      ∀ symbol ∈ symbols, last.value? program (symbol.field (Name.inner outer type)) =
        some (symbol.value.rebased config.sharedId q) := by
  intro program
  obtain ⟨last, initializes, outcome⟩ : ∃ last,
      Initializes program (Name.inner outer type) last ∧
        last.outcome = (symbols.filter (Symbol.isAssigned config)).map fun symbol =>
          (symbol.field (Name.inner outer type), some (symbol.value.rebased config.sharedId q)) :=
    ⟨_, (initializes_of_cut q cutting).1, (initializes_of_cut q cutting).2.1⟩
  have targets : last.outcome.map Prod.fst =
      (symbols.filter (Symbol.isAssigned config)).map (Symbol.field (Name.inner outer type)) := by
    rw [outcome, List.map_map]
    rfl
  have fields_nodup := nodup_fields (Name.inner outer type) distinct
  refine ⟨last, initializes, ?_⟩
  intro symbol member
  cases assigned : symbol.isAssigned config with
  | true =>
    have once : (last.outcome.map Prod.fst).Nodup := by
      rw [targets]
      exact (List.filter_sublist.map _).nodup fields_nodup
    have stored : (symbol.field (Name.inner outer type),
        some (symbol.value.rebased config.sharedId q)) ∈ last.outcome := by
      rw [outcome]
      exact List.mem_map.mpr ⟨symbol, List.mem_filter.mpr ⟨member, assigned⟩, rfl⟩
    obtain ⟨value, found, content⟩ := stored?_of_mem once stored
    rw [State.value?, found]
    exact content
  | false =>
    have never : symbol.field (Name.inner outer type) ∉ last.outcome.map Prod.fst := by
      rw [targets]
      intro known
      obtain ⟨other, kept, same⟩ := List.mem_map.mp known
      obtain ⟨listed, other_assigned⟩ := List.mem_filter.mp kept
      rw [List.inj_on_of_nodup_map fields_nodup listed member same, assigned] at other_assigned
      contradiction
    rw [State.value?, stored?_eq_none never, rebased_of_kept q assigned]
    exact lookup_constants _ distinct member assigned

end ResourceClasses
