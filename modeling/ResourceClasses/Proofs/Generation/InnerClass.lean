import ResourceClasses.Proofs.Generation.ChainPlan
import ResourceClasses.Proofs.Generation.Classes

/-!
The class of a resource type: there is one exactly if every symbol has a name that can name a member
and no array has too many elements. Otherwise names are blamed before arrays, and the first one is.
-/

set_option autoImplicit false

namespace ResourceClasses

/-- Whether the name of a symbol can name a member. -/
def Symbol.IsNamed (symbol : Symbol) : Prop :=
  Name.checkMember symbol.name = .ok ()

/-- Whether a symbol is no array of more elements than one method can store. -/
def Symbol.IsStorable (sharedId : Bool) (symbol : Symbol) : Prop :=
  ∀ values, symbol.value = .array values → values.length ≤ if sharedId then 6551 else 8190

namespace Generation

/-- The reasons for which there is no class of some symbols: the first name that cannot name a
member or, if all can, the first array of too many elements. -/
inductive RefusedFor (className directory : String) (sharedId : Bool) (symbols : List Symbol) :
    GenerateError → Prop
  | name {symbol : Symbol} {reason : Name.MemberNameError}
      (first : FirstWithout Symbol.IsNamed symbols symbol)
      (refused : Name.checkMember symbol.name = .error reason) :
      RefusedFor className directory sharedId symbols
        (.invalidName symbol.name className directory reason)
  | array {symbol : Symbol} (named : ∀ other ∈ symbols, other.IsNamed)
      (first : FirstWithout (Symbol.IsStorable sharedId) symbols symbol) :
      RefusedFor className directory sharedId symbols
        (.oversizedInitializer className symbol.name)

/-- An int always fits a method of its own, and an array does if its elements can be stored. -/
theorem fitsAlone_iff_isStorable {sharedId : Bool} {symbol : Symbol} :
    FitsAlone sharedId symbol ↔ symbol.IsStorable sharedId := by
  obtain ⟨name, value, dependency⟩ := symbol
  have size : ResourceField.maxCodeSize sharedId (⟨name, value, dependency⟩ : Symbol) =
      Symbol.maxCodeSize sharedId ⟨name, value, dependency⟩ := rfl
  rw [FitsAlone, Symbol.IsStorable, size]
  cases value with
  | int n => cases sharedId <;> simp [Symbol.maxCodeSize]
  | array values =>
    cases sharedId <;> simp [Symbol.maxCodeSize, Symbol.maxElements]
    all_goals omega

/-- A symbol that has a constant is no array. -/
private theorem isStorable_of_constant {config : Config} {symbol : Symbol}
    (known : ResourceField.isDeferred (ResourceField.declare config symbol) = false) :
    symbol.IsStorable config.sharedId.isSome := by
  obtain ⟨name, value, dependency⟩ := symbol
  cases value with
  | int n =>
    intro values array
    contradiction
  | array values => contradiction

/-- Only fields that code assigns need room, and the others are no arrays. -/
private theorem firstWithout_deferred_iff {config : Config} {symbols : List Symbol}
    {symbol : Symbol} :
    FirstWithout (FitsAlone config.sharedId.isSome) (deferred config symbols) symbol ↔
      FirstWithout (Symbol.IsStorable config.sharedId.isSome) symbols symbol := by
  have same : (FitsAlone config.sharedId.isSome : Symbol → Prop) =
      Symbol.IsStorable config.sharedId.isSome := by
    funext symbol
    exact propext fitsAlone_iff_isStorable
  rw [same]
  exact firstWithout_filter_iff fun symbol _ known => isStorable_of_constant known

private theorem exists_declareChecked_iff {className directory : String} {config : Config}
    {symbol : Symbol} :
    (∃ decl, declareChecked className directory config symbol = .ok decl) ↔ symbol.IsNamed := by
  have name_eq : ResourceField.name symbol = symbol.name := rfl
  rw [declareChecked, name_eq, Symbol.IsNamed]
  cases Name.checkMember symbol.name <;> simp

private theorem declareChecked_eq_error_iff {className directory : String} {config : Config}
    {symbol : Symbol} {e : GenerateError} :
    declareChecked className directory config symbol = .error e ↔
      ∃ reason, Name.checkMember symbol.name = .error reason ∧
        e = .invalidName symbol.name className directory reason := by
  have name_eq : ResourceField.name symbol = symbol.name := rfl
  rw [declareChecked, name_eq]
  cases Name.checkMember symbol.name <;> simp [eq_comm]

section

variable {outer directory : String} {type : ResourceType} {symbols : List Symbol}
  {config : Config}

private theorem exists_declared_iff :
    (∃ declared,
      symbols.mapM (declareChecked (Name.inner outer type) directory config) = .ok declared) ↔
        ∀ symbol ∈ symbols, symbol.IsNamed := by
  simp only [exists_mapM_iff, exists_declareChecked_iff]

private theorem declared_eq_error_iff {e : GenerateError} :
    symbols.mapM (declareChecked (Name.inner outer type) directory config) = .error e ↔
      ∃ symbol reason, FirstWithout Symbol.IsNamed symbols symbol ∧
        Name.checkMember symbol.name = .error reason ∧
          e = .invalidName symbol.name (Name.inner outer type) directory reason := by
  simp only [mapM_eq_error_iff, exists_declareChecked_iff, declareChecked_eq_error_iff]
  constructor
  · rintro ⟨symbol, first, reason, refused, same⟩
    exact ⟨symbol, reason, first, refused, same⟩
  · rintro ⟨symbol, reason, first, refused, same⟩
    exact ⟨symbol, first, reason, refused, same⟩

private theorem exists_planned_iff :
    (∃ methods,
      plan (Name.inner outer type) config.sharedId.isSome (deferred config symbols) =
        .ok methods) ↔ ∀ symbol ∈ symbols, symbol.IsStorable config.sharedId.isSome := by
  rw [exists_plan_iff (addable_symbols _ _), ← not_iff_not, ← exists_firstWithout_iff,
    ← exists_firstWithout_iff]
  simp only [firstWithout_deferred_iff]

private theorem planned_eq_error_iff {e : GenerateError} :
    plan (Name.inner outer type) config.sharedId.isSome (deferred config symbols) = .error e ↔
      ∃ symbol, FirstWithout (Symbol.IsStorable config.sharedId.isSome) symbols symbol ∧
        e = .oversizedInitializer (Name.inner outer type) symbol.name := by
  simp only [plan_eq_error_iff (addable_symbols _ _), firstWithout_deferred_iff]
  rfl

private theorem exists_innerClass_iff :
    (∃ decl, innerClass outer type symbols directory config = .ok decl) ↔
      (∀ symbol ∈ symbols, symbol.IsNamed) ∧
        ∀ symbol ∈ symbols, symbol.IsStorable config.sharedId.isSome := by
  constructor
  · rintro ⟨decl, done⟩
    obtain ⟨declared, checked, done⟩ := bind_eq_ok_iff.mp done
    obtain ⟨methods, planned, -⟩ := bind_eq_ok_iff.mp done
    exact ⟨exists_declared_iff.mp ⟨declared, checked⟩, exists_planned_iff.mp ⟨methods, planned⟩⟩
  · rintro ⟨named, storable⟩
    obtain ⟨declared, checked⟩ := exists_declared_iff.mpr named
    obtain ⟨methods, planned⟩ := exists_planned_iff.mpr storable
    exact ⟨_, bind_eq_ok_iff.mpr
      ⟨declared, checked, bind_eq_ok_iff.mpr ⟨methods, planned, rfl⟩⟩⟩

private theorem innerClass_eq_error_iff {e : GenerateError} :
    innerClass outer type symbols directory config = .error e ↔
      RefusedFor (Name.inner outer type) directory config.sharedId.isSome symbols e := by
  constructor
  · intro failed
    rcases bind_eq_error_iff.mp failed with unnamed | ⟨declared, checked, failed⟩
    · obtain ⟨symbol, reason, first, refused, rfl⟩ := declared_eq_error_iff.mp unnamed
      exact .name first refused
    · have named := exists_declared_iff.mp ⟨declared, checked⟩
      rcases bind_eq_error_iff.mp failed with unplanned | ⟨_, _, never⟩
      · obtain ⟨symbol, first, rfl⟩ := planned_eq_error_iff.mp unplanned
        exact .array named first
      · contradiction
  · intro refused
    cases refused with
    | @name symbol reason first refused =>
      refine bind_eq_error_iff.mpr (.inl ?_)
      exact declared_eq_error_iff.mpr ⟨symbol, reason, first, refused, rfl⟩
    | @array symbol named first =>
      obtain ⟨declared, checked⟩ := exists_declared_iff.mpr named
      refine bind_eq_error_iff.mpr (.inr ⟨declared, checked, bind_eq_error_iff.mpr (.inl ?_)⟩)
      exact planned_eq_error_iff.mpr ⟨symbol, first, rfl⟩

end

/-- There is a class of some symbols exactly if all their names can name members and none is an
array of too many elements; otherwise the first name that cannot is blamed, whatever arrays stand
before it, or else the first such array. -/
theorem innerClass_outcome (outer directory : String) (type : ResourceType)
    (symbols : List Symbol) (config : Config) :
    ((∃ decl, innerClass outer type symbols directory config = .ok decl) ↔
      (∀ symbol ∈ symbols, symbol.IsNamed) ∧
        ∀ symbol ∈ symbols, symbol.IsStorable config.sharedId.isSome) ∧
    ∀ e, innerClass outer type symbols directory config = .error e ↔
      RefusedFor (Name.inner outer type) directory config.sharedId.isSome symbols e :=
  ⟨exists_innerClass_iff, fun _ => innerClass_eq_error_iff⟩

end Generation

end ResourceClasses
