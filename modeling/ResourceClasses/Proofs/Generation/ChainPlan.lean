import Mathlib.Data.List.Nodup
import ResourceClasses.Proofs.Generation.Partition
import ResourceClasses.Proofs.Outcome

/-!
Plans of initializer chains: unless a size is so large that a machine word cannot hold its sum with
that of a full method, there is a plan exactly if each field fits a method of its own, and the first
field that does not is blamed otherwise. The methods of a plan take the fields in order, and are
numbered, linked and named one after another, whatever the sizes.
-/

set_option autoImplicit false

namespace ResourceClasses.Generation

section

variable {α : Type} {prologue : Nat} {size : α → Nat}

/-- Cutting goes on to the first item that does not even fit on its own. -/
private theorem cutAfter_eq_error_iff {finished : List (Block α)} {used : Nat}
    {opened items : List α} {item : α} (addable : Addable prologue size items)
    (begun : prologue ≤ used) (used_le : used ≤ methodBudget) :
    cutAfter prologue size finished used opened items = .error item ↔
      FirstWithout (fun other => prologue + size other ≤ methodBudget) items item := by
  induction items generalizing finished used opened with
  | nil =>
    constructor
    · intro failed
      cases opened <;> contradiction
    · intro first
      contradiction
  | cons head rest ih =>
    rw [cutAfter, firstWithout_cons_iff, addable.addSizes_eq List.mem_cons_self used_le,
      addable.addSizes_eq List.mem_cons_self addable.prologue_le]
    by_cases room : used + size head ≤ methodBudget
    · have alone : prologue + size head ≤ methodBudget := by omega
      have more : prologue ≤ used + size head := by omega
      rw [if_pos room, ih addable.of_cons more room]
      simp [alone]
    · rw [if_neg room]
      by_cases alone : prologue + size head ≤ methodBudget
      · rw [if_pos alone, ih addable.of_cons (Nat.le_add_right prologue (size head)) alone]
        simp [alone]
      · rw [if_neg alone]
        simp [alone, eq_comm]

theorem cut_eq_error_iff {items : List α} {item : α} (addable : Addable prologue size items) :
    cut prologue size items = .error item ↔
      FirstWithout (fun other => prologue + size other ≤ methodBudget) items item :=
  cutAfter_eq_error_iff addable (Nat.le_refl prologue) addable.prologue_le

theorem exists_cut_iff {items : List α} (addable : Addable prologue size items) :
    (∃ blocks, cut prologue size items = .ok blocks) ↔
      ∀ item ∈ items, prologue + size item ≤ methodBudget := by
  rw [← not_iff_not, ← exists_firstWithout_iff]
  simp only [← cut_eq_error_iff addable]
  cases cut prologue size items <;> simp

/-- An item is only blamed if its size and that of the prologue, as words, are too large together. -/
private theorem lt_of_cutAfter_eq_error {finished : List (Block α)} {used : Nat}
    {opened items : List α} {item : α}
    (failed : cutAfter prologue size finished used opened items = .error item) :
    item ∈ items ∧ methodBudget < addSizes prologue (size item) := by
  induction items generalizing finished used opened with
  | nil => cases opened <;> contradiction
  | cons head rest ih =>
    rw [cutAfter] at failed
    split at failed
    · exact (ih failed).imp_left (List.mem_cons_of_mem head)
    · split at failed
      · exact (ih failed).imp_left (List.mem_cons_of_mem head)
      · rename_i large
        cases failed
        exact ⟨List.mem_cons_self, Nat.lt_of_not_le large⟩

end

/-- The positions of the fields that a method assigns. -/
def InitializerMethod.positions {α : Type} (method : InitializerMethod α) : List Nat :=
  List.range' method.start method.fields.length

section

variable {α : Type}

private theorem length_linkAfter (ordinal start : Nat) (blocks : List (Block α)) :
    (linkAfter [] ordinal start blocks).length = blocks.length := by
  simpa using congrArg List.length (map_ordinal_linkAfter ordinal start blocks)

private theorem positions_linkAfter (ordinal start : Nat) (blocks : List (Block α)) :
    (linkAfter [] ordinal start blocks).flatMap InitializerMethod.positions =
      List.range' start (blocks.flatMap Block.items).length := by
  induction blocks generalizing ordinal start with
  | nil => rfl
  | cons block rest ih =>
    rw [linkAfter_cons, List.flatMap_cons, ih, List.flatMap_cons, List.length_append,
      InitializerMethod.positions, List.range'_append_1]

/-- The methods of later blocks find their fields behind those of the blocks before. -/
private theorem fields_linkAfter {ordinal : Nat} {blocks : List (Block α)} (front : List α)
    {method : InitializerMethod α} (member : method ∈ linkAfter [] ordinal front.length blocks) :
    method.fields =
      ((front ++ blocks.flatMap Block.items).drop method.start).take method.fields.length := by
  induction blocks generalizing ordinal front with
  | nil => simp [linkAfter] at member
  | cons block rest ih =>
    rw [linkAfter_cons] at member
    rcases List.mem_cons.mp member with rfl | later
    · simp
    · rw [← List.length_append] at later
      simpa using ih (front ++ block.items) later

private theorem getElem?_linkAfter {ordinal start index : Nat} {blocks : List (Block α)}
    {method : InitializerMethod α}
    (found : (linkAfter [] ordinal start blocks)[index]? = some method) :
    method.ordinal = ordinal + index ∧
      method.next = if index + 1 < blocks.length then some (ordinal + index + 1) else none := by
  induction blocks generalizing ordinal start index with
  | nil => simp [linkAfter] at found
  | cons block rest ih =>
    rw [linkAfter_cons] at found
    cases index with
    | zero =>
      cases found
      cases rest <;> simp
    | succ index =>
      obtain ⟨place, called⟩ := ih (by simpa using found)
      refine ⟨by omega, ?_⟩
      rw [called, List.length_cons]
      simp only [Nat.add_lt_add_iff_right]
      congr 2
      omega

end

variable {α : Type} [ResourceField α]

/-- Whether a field fits a method of its own: with four bytes in front if a package id is shared, its
code leaves four bytes for a call and the return. -/
def FitsAlone (sharedId : Bool) (field : α) : Prop :=
  (if sharedId then 4 else 0) + ResourceField.maxCodeSize sharedId field ≤ 65531

/-- The bytes that some fields and the prologue of their method take. -/
def chainSize (sharedId : Bool) (fields : List α) : Nat :=
  (if sharedId then 4 else 0) + total (fields.map (ResourceField.maxCodeSize sharedId))

/-- Whether methods are the chain of some fields: they take all of them in order, none takes nothing
or too much as far as a word can tell, and they are numbered from zero, each calling the next one
under a name of its own. -/
structure IsChain (sharedId : Bool) (fields : List α) (methods : List (InitializerMethod α)) :
    Prop where
  nonempty : ∀ method ∈ methods, method.fields ≠ []
  positions_eq : methods.flatMap InitializerMethod.positions = List.range fields.length
  fields_eq : ∀ method ∈ methods,
    method.fields = (fields.drop method.start).take method.fields.length
  codeSize_eq : ∀ method ∈ methods,
    method.codeSize = chainSize sharedId method.fields % sizeLimit
  codeSize_le : ∀ method ∈ methods, method.codeSize ≤ 65531
  linked : ∀ (index : Nat) (method : InitializerMethod α), methods[index]? = some method →
    method.ordinal = index ∧
      method.next = if index + 1 < methods.length then some (index + 1) else none
  names_nodup : (methods.map fun method => methodName method.ordinal).Nodup
  first_name : ∀ method ∈ methods.head?, methodName method.ordinal = "<clinit>"
  empty_iff : methods = [] ↔ fields = []

/-- The methods that a cut is linked to are the chain of its items. -/
private theorem isChain_link {sharedId : Bool} {fields : List α} {blocks : List (Block α)}
    (cutting : cut (prologueSize sharedId) (ResourceField.maxCodeSize sharedId) fields =
      .ok blocks) : IsChain sharedId fields (link blocks) := by
  obtain ⟨fits, together⟩ := cut_wraps cutting
  have length_eq : (link blocks).length = blocks.length := length_linkAfter 0 0 blocks
  have block_of : ∀ method ∈ link blocks, ∃ block ∈ blocks,
      method.codeSize = block.size ∧ method.fields = block.items :=
    fun _ member => exists_block_of_mem_linkAfter member
  constructor
  case nonempty =>
    intro method member
    obtain ⟨block, inside, -, fields_eq⟩ := block_of method member
    rw [fields_eq]
    exact (fits block inside).1
  case positions_eq =>
    rw [link, positions_linkAfter, together, List.range_eq_range']
  case fields_eq =>
    intro method member
    rw [← together]
    exact fields_linkAfter [] member
  case codeSize_eq =>
    intro method member
    obtain ⟨block, inside, size_eq, fields_eq⟩ := block_of method member
    rw [size_eq, fields_eq]
    exact (fits block inside).2.2
  case codeSize_le =>
    intro method member
    obtain ⟨block, inside, size_eq, -⟩ := block_of method member
    rw [size_eq]
    exact (fits block inside).2.1
  case linked =>
    intro index method found
    have place := getElem?_linkAfter found
    rw [length_eq]
    simpa using place
  case names_nodup =>
    have names : ((link blocks).map fun method => methodName method.ordinal) =
        (List.range' 0 blocks.length).map methodName := by
      rw [← map_ordinal_linkAfter 0 0 blocks, List.map_map]
      rfl
    rw [names]
    exact List.Nodup.map methodName_injective List.nodup_range'
  case first_name =>
    intro method first
    have found : (link blocks)[0]? = some method := by
      rw [← List.head?_eq_getElem?]
      exact first
    rw [(getElem?_linkAfter found).1]
    rfl
  case empty_iff =>
    rw [← List.length_eq_zero_iff, length_eq, List.length_eq_zero_iff]
    constructor
    · rintro rfl
      exact together.symm
    · rintro rfl
      cases blocks with
      | nil => rfl
      | cons block rest =>
        have nothing : block.items = [] := by
          rw [List.flatMap_cons] at together
          exact (List.append_eq_nil_iff.mp together).1
        exact absurd nothing (fits block List.mem_cons_self).1

/-- The sizes of fields that leave room for those of a full method in a word. -/
private theorem addable_of_lt {sharedId : Bool} {fields : List α}
    (small : ∀ field ∈ fields, ResourceField.maxCodeSize sharedId field < sizeLimit - 65531) :
    Addable (prologueSize sharedId) (ResourceField.maxCodeSize sharedId) fields := by
  refine ⟨prologueSize_le sharedId, fun field member => ?_⟩
  have size_lt := small field member
  rw [sizeLimit_eq] at size_lt ⊢
  rw [methodBudget_eq]
  omega

section

variable {className : String} {sharedId : Bool} {fields : List α}

theorem exists_plan_iff
    (addable : Addable (prologueSize sharedId) (ResourceField.maxCodeSize sharedId) fields) :
    (∃ methods, plan className sharedId fields = .ok methods) ↔
      ∀ field ∈ fields, FitsAlone sharedId field := by
  have cuts :
      (∃ blocks,
        cut (prologueSize sharedId) (ResourceField.maxCodeSize sharedId) fields = .ok blocks) ↔
          ∀ field ∈ fields, FitsAlone sharedId field := exists_cut_iff addable
  rw [← cuts]
  constructor
  · rintro ⟨methods, planned⟩
    obtain ⟨blocks, cutting, -⟩ := plan_eq_ok_iff.mp planned
    exact ⟨blocks, cutting⟩
  · rintro ⟨blocks, cutting⟩
    exact ⟨link blocks, plan_eq_ok_iff.mpr ⟨blocks, cutting, rfl⟩⟩

private theorem plan_eq_error_iff_cut {e : GenerateError} :
    plan className sharedId fields = .error e ↔
      ∃ field,
        cut (prologueSize sharedId) (ResourceField.maxCodeSize sharedId) fields = .error field ∧
          e = .oversizedInitializer className (ResourceField.name field) := by
  unfold plan
  cases cut (prologueSize sharedId) (ResourceField.maxCodeSize sharedId) fields <;>
    simp [eq_comm]

theorem plan_eq_error_iff {e : GenerateError}
    (addable : Addable (prologueSize sharedId) (ResourceField.maxCodeSize sharedId) fields) :
    plan className sharedId fields = .error e ↔
      ∃ field, FirstWithout (FitsAlone sharedId) fields field ∧
        e = .oversizedInitializer className (ResourceField.name field) := by
  have blamed : ∀ field,
      cut (prologueSize sharedId) (ResourceField.maxCodeSize sharedId) fields = .error field ↔
        FirstWithout (FitsAlone sharedId) fields field :=
    fun field => cut_eq_error_iff addable
  simp only [plan_eq_error_iff_cut, blamed]

/-- The methods of a plan take the bytes that they claim, if sizes can be added. -/
private theorem codeSize_eq_chainSize
    (addable : Addable (prologueSize sharedId) (ResourceField.maxCodeSize sharedId) fields)
    {methods : List (InitializerMethod α)}
    (planned : plan className sharedId fields = .ok methods) :
    ∀ method ∈ methods, method.codeSize = chainSize sharedId method.fields := by
  obtain ⟨blocks, cutting, rfl⟩ := plan_eq_ok_iff.mp planned
  intro method member
  obtain ⟨block, inside, size_eq, fields_eq⟩ := exists_block_of_mem_linkAfter member
  rw [size_eq, fields_eq]
  exact ((cut_fits addable cutting).1 block inside).size_eq

end

/-- A plan is a chain of its fields, and one that fails blames a field whose size, as a word with that
of the prologue, is too large. If no size comes so close to the end of a word that its sum with that
of a full method would start again from zero, then fields have a plan exactly if each fits a method
of its own, the first one that does not is blamed otherwise, and the methods claim the bytes that
their fields take. -/
theorem plan_chain (className : String) (sharedId : Bool) (fields : List α) :
    (∀ methods, plan className sharedId fields = .ok methods →
      IsChain sharedId fields methods) ∧
    (∀ e, plan className sharedId fields = .error e →
      ∃ field ∈ fields, 65531 < chainSize sharedId [field] % sizeLimit ∧
        e = .oversizedInitializer className (ResourceField.name field)) ∧
    ((∀ field ∈ fields, ResourceField.maxCodeSize sharedId field < sizeLimit - 65531) →
      ((∃ methods, plan className sharedId fields = .ok methods) ↔
        ∀ field ∈ fields, FitsAlone sharedId field) ∧
      (∀ e, plan className sharedId fields = .error e ↔
        ∃ field, FirstWithout (FitsAlone sharedId) fields field ∧
          e = .oversizedInitializer className (ResourceField.name field)) ∧
      ∀ methods, plan className sharedId fields = .ok methods →
        ∀ method ∈ methods, method.codeSize = chainSize sharedId method.fields) := by
  refine ⟨?_, ?_, fun small => ?_⟩
  · intro methods planned
    obtain ⟨blocks, cutting, rfl⟩ := plan_eq_ok_iff.mp planned
    exact isChain_link cutting
  · intro e failed
    obtain ⟨field, blamed, same⟩ := plan_eq_error_iff_cut.mp failed
    obtain ⟨member, large⟩ := lt_of_cutAfter_eq_error blamed
    refine ⟨field, member, ?_, same⟩
    rw [chainSize, List.map_singleton, total_cons, total_nil]
    exact large
  · have addable := addable_of_lt small
    exact ⟨exists_plan_iff addable, fun _ => plan_eq_error_iff addable,
      fun _ planned => codeSize_eq_chainSize addable planned⟩

/-- Three wide arrays, which do not fit one method together, have a chain. -/
theorem plan_chain_wideArrays :
    (∀ field ∈ [wideArray "first", wideArray "second", wideArray "third"],
      ResourceField.maxCodeSize true field < sizeLimit - 65531) ∧
    ∃ methods,
      plan "R$styleable" true [wideArray "first", wideArray "second", wideArray "third"] =
          .ok methods ∧
        IsChain true [wideArray "first", wideArray "second", wideArray "third"] methods := by
  have sizes : ∀ field ∈ [wideArray "first", wideArray "second", wideArray "third"],
      ResourceField.maxCodeSize true field = 30008 := by
    simp [maxCodeSize_wideArray]
  have small : ∀ field ∈ [wideArray "first", wideArray "second", wideArray "third"],
      ResourceField.maxCodeSize true field < sizeLimit - 65531 := by
    intro field member
    rw [sizes field member]
    decide
  have fits : ∀ field ∈ [wideArray "first", wideArray "second", wideArray "third"],
      FitsAlone true field := by
    intro field member
    rw [FitsAlone, sizes field member]
    decide
  obtain ⟨methods, planned⟩ := ((plan_chain "R$styleable" true _).2.2 small).1.mpr fits
  exact ⟨small, methods, planned, (plan_chain "R$styleable" true _).1 methods planned⟩

/-- A field that claims some size, whatever the bytes of its code. -/
structure ClaimingField where
  name : String
  size : Nat
  deriving DecidableEq, Repr

instance : ResourceField ClaimingField where
  name := ClaimingField.name
  maxCodeSize _ := ClaimingField.size
  declare _ field := { access := 9, name := field.name, descriptor := "I" }
  assign className _ field := [.pushInt 0, .putStatic ⟨className, field.name, "I"⟩]

/-- A field that claims the largest size of all is planned behind a prologue, although it does not
fit a method: with the four bytes of the prologue its size is three. -/
theorem not_plan_chain_largest :
    let field : ClaimingField := ⟨"big", sizeLimit - 1⟩
    plan "K" true [field] = .ok [⟨0, 3, 0, [field], none⟩] ∧ ¬FitsAlone true field := by
  intro field
  refine ⟨by decide, ?_⟩
  rw [FitsAlone]
  decide

end ResourceClasses.Generation
