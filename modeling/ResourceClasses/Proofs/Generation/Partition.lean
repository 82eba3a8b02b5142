import ResourceClasses.Field.Symbol
import ResourceClasses.Proofs.Generation.Chain

/-!
Chains are as short as possible: however else the fields are cut into consecutive blocks that fit a
method each, there are no fewer blocks than methods.
-/

set_option autoImplicit false

namespace ResourceClasses.Generation

/-- Whether consecutive blocks hold all items in order and each fits a method with its prologue. -/
structure Partition {α : Type} (prologue : Nat) (size : α → Nat) (items : List α)
    (blocks : List (List α)) : Prop where
  flatten : blocks.flatten = items
  fits : ∀ block ∈ blocks, prologue + total (block.map size) ≤ methodBudget

section

variable {α : Type} {prologue : Nat} {size : α → Nat}

/-- Items that fit the open block together all go into it. -/
private theorem cutAfter_append_of_fits {items : List α} (finished : List (Block α)) {used : Nat}
    (opened later : List α) (fits : used + total (items.map size) ≤ methodBudget) :
    cutAfter prologue size finished used opened (items ++ later) =
      cutAfter prologue size finished (used + total (items.map size)) (items.reverse ++ opened)
        later := by
  induction items generalizing used opened with
  | nil => rfl
  | cons item rest ih =>
    rw [List.map_cons, total_cons] at fits
    have first : used + size item ≤ methodBudget := by omega
    have others : used + size item + total (rest.map size) ≤ methodBudget := by omega
    rw [List.cons_append, cutAfter, addSizes_of_le first, if_pos first, ih (item :: opened) others,
      List.map_cons, total_cons, ← Nat.add_assoc, List.reverse_cons, List.append_assoc,
      List.singleton_append]

/-- Whatever is in the open block, items that fit one method together finish at most one block:
once it is finished, the next one has room for all that are left of them. -/
private theorem cutAfter_append {items : List α} (finished : List (Block α)) (used : Nat)
    (opened later : List α) (fits : prologue + total (items.map size) ≤ methodBudget) :
    ∃ closed used' opened', closed.length ≤ finished.length + 1 ∧
      cutAfter prologue size finished used opened (items ++ later) =
        cutAfter prologue size closed used' opened' later := by
  induction items generalizing used opened with
  | nil => exact ⟨finished, used, opened, Nat.le_succ _, rfl⟩
  | cons item rest ih =>
    rw [List.map_cons, total_cons] at fits
    rw [List.cons_append, cutAfter]
    by_cases room : addSizes used (size item) ≤ methodBudget
    · rw [if_pos room]
      exact ih (addSizes used (size item)) (item :: opened) (by omega)
    · have alone : prologue + size item ≤ methodBudget := by omega
      have others : prologue + size item + total (rest.map size) ≤ methodBudget := by omega
      rw [if_neg room, addSizes_of_le alone, if_pos alone]
      exact ⟨_, _, _, Nat.le_refl _, cutAfter_append_of_fits _ [item] later others⟩

/-- The cut of a partition's items goes on with at most one more block for each of its blocks. -/
private theorem cutAfter_flatten {blocks : List (List α)} (finished : List (Block α)) (used : Nat)
    (opened : List α)
    (fits : ∀ block ∈ blocks, prologue + total (block.map size) ≤ methodBudget) :
    ∃ cuts, cutAfter prologue size finished used opened blocks.flatten = .ok cuts ∧
      cuts.length ≤ finished.length + 1 + blocks.length := by
  induction blocks generalizing finished used opened with
  | nil =>
    cases opened with
    | nil =>
      refine ⟨finished.reverse, rfl, ?_⟩
      rw [List.length_reverse]
      omega
    | cons item others =>
      refine ⟨_, rfl, ?_⟩
      rw [List.length_reverse, List.length_cons]
      omega
  | cons block rest ih =>
    obtain ⟨closed, used', opened', few, same⟩ :=
      cutAfter_append finished used opened rest.flatten (fits block List.mem_cons_self)
    obtain ⟨cuts, cutting, bound⟩ :=
      ih closed used' opened' fun other member => fits other (List.mem_cons_of_mem block member)
    refine ⟨cuts, ?_, ?_⟩
    · rw [List.flatten_cons, same, cutting]
    · rw [List.length_cons]
      omega

/-- Items that have a partition are cut into no more blocks than it has. -/
theorem exists_cut_of_partition {items : List α} {blocks : List (List α)}
    (partition : Partition prologue size items blocks) :
    ∃ cuts, cut prologue size items = .ok cuts ∧ cuts.length ≤ blocks.length := by
  obtain ⟨rfl, fits⟩ := partition
  cases blocks with
  | nil => exact ⟨[], rfl, Nat.le_refl 0⟩
  | cons block rest =>
    -- Nothing is finished before the first block is: the cut is never behind the partition.
    have first : cutAfter prologue size [] prologue [] (block ++ rest.flatten) = _ :=
      cutAfter_append_of_fits [] [] rest.flatten (fits block List.mem_cons_self)
    obtain ⟨cuts, cutting, bound⟩ := cutAfter_flatten [] (prologue + total (block.map size))
      (block.reverse ++ []) fun other member => fits other (List.mem_cons_of_mem block member)
    refine ⟨cuts, ?_, ?_⟩
    · rw [cut, List.flatten_cons, first, cutting]
    · rw [List.length_cons]
      rw [List.length_nil] at bound
      omega

/-- Items that have a partition are small enough for their sizes to be added. -/
theorem Partition.addable {items : List α} {blocks : List (List α)}
    (partition : Partition prologue size items blocks) (begins : prologue ≤ methodBudget) :
    Addable prologue size items := by
  refine ⟨begins, fun item member => ?_⟩
  rw [← partition.flatten] at member
  obtain ⟨block, inside, member⟩ := List.mem_flatten.mp member
  have part := le_total_of_mem (List.mem_map_of_mem (f := size) member)
  have fits := partition.fits block inside
  rw [methodBudget_eq] at fits ⊢
  rw [sizeLimit_eq]
  omega

/-- The blocks of a cut are a partition themselves. -/
theorem partition_of_cut {items : List α} {cuts : List (Block α)}
    (addable : Addable prologue size items) (cutting : cut prologue size items = .ok cuts) :
    Partition prologue size items (cuts.map Block.items) := by
  obtain ⟨fits, together⟩ := cut_fits addable cutting
  refine ⟨?_, ?_⟩
  · rw [← List.flatMap_def, together]
  · intro block member
    obtain ⟨made, inside, rfl⟩ := List.mem_map.mp member
    rw [← (fits made inside).size_eq]
    exact (fits made inside).size_le

private theorem map_fields_linkAfter (ordinal start : Nat) (blocks : List (Block α)) :
    (linkAfter [] ordinal start blocks).map InitializerMethod.fields = blocks.map Block.items := by
  induction blocks generalizing ordinal start with
  | nil => rfl
  | cons block rest ih => rw [linkAfter_cons, List.map_cons, List.map_cons, ih]

end

variable {α : Type} [ResourceField α]

/-- When fields can be cut, in order, into blocks that fit a method each, there is a chain for them,
whose methods are such blocks, and no such blocks are fewer than its methods. -/
theorem plan_minimal {sharedId : Bool} {fields : List α} {blocks : List (List α)}
    (className : String)
    (partition : Partition (prologueSize sharedId) (ResourceField.maxCodeSize sharedId) fields
      blocks) :
    ∃ methods, plan className sharedId fields = .ok methods ∧
      Partition (prologueSize sharedId) (ResourceField.maxCodeSize sharedId) fields
        (methods.map InitializerMethod.fields) ∧
      ∀ other,
        Partition (prologueSize sharedId) (ResourceField.maxCodeSize sharedId) fields other →
          methods.length ≤ other.length := by
  obtain ⟨cuts, cutting, -⟩ := exists_cut_of_partition partition
  have same : (link cuts).map InitializerMethod.fields = cuts.map Block.items :=
    map_fields_linkAfter 0 0 cuts
  have addable := partition.addable (prologueSize_le sharedId)
  refine ⟨link cuts, by rw [plan, cutting], same ▸ partition_of_cut addable cutting, ?_⟩
  intro other competing
  obtain ⟨found, found_cut, bound⟩ := exists_cut_of_partition competing
  have length_eq : (link cuts).length = cuts.length := by
    simpa using congrArg List.length same
  rw [cutting, Except.ok.injEq] at found_cut
  rw [length_eq, found_cut]
  exact bound

/-- An array of three thousand elements: two of its kind fit one method, three do not. -/
def wideArray (name : String) : Symbol :=
  ⟨name, .array (List.replicate 3000 1), none⟩

private theorem maxCodeSize_array (name : String) (values : List Int32) :
    ResourceField.maxCodeSize true (⟨name, .array values, none⟩ : Symbol) =
      8 + 10 * min values.length Symbol.maxElements := rfl

theorem maxCodeSize_wideArray (name : String) :
    ResourceField.maxCodeSize true (wideArray name) = 30008 := by
  rw [wideArray, maxCodeSize_array, List.length_replicate]
  rfl

/-- Three wide arrays get a chain of two methods at most, since two blocks hold them. -/
theorem plan_minimal_wideArrays :
    ∃ methods,
      plan "R$styleable" true [wideArray "first", wideArray "second", wideArray "third"] =
          .ok methods ∧
        methods.length ≤ 2 := by
  have fits : Partition (prologueSize true) (ResourceField.maxCodeSize true)
      [wideArray "first", wideArray "second", wideArray "third"]
      [[wideArray "first"], [wideArray "second", wideArray "third"]] := by
    refine ⟨rfl, ?_⟩
    intro block member
    rcases List.mem_pair.mp member with rfl | rfl
    · rw [List.map_singleton, maxCodeSize_wideArray]
      decide
    · rw [List.map_cons, List.map_singleton, maxCodeSize_wideArray, maxCodeSize_wideArray]
      decide
  obtain ⟨methods, planned, -, fewest⟩ := plan_minimal "R$styleable" fits
  exact ⟨methods, planned, fewest _ fits⟩

end ResourceClasses.Generation
