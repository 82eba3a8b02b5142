import Mathlib.Data.List.Nodup
import ResourceClasses.Field.Symbol
import ResourceClasses.Generation.Chain
import Std.Data.String.ToNat

/-!
Laws of initializer chains: the blocks of a cut hold all items in order and fit their methods, and
linked methods are numbered from zero, each under a name of its own.
-/

set_option autoImplicit false

namespace ResourceClasses

@[simp]
theorem total_reverse (sizes : List Nat) : total sizes.reverse = total sizes := by
  induction sizes with
  | nil => rfl
  | cons size rest ih =>
    rw [List.reverse_cons, total_append, ih, total_cons, total_cons, total_nil]
    omega

theorem le_total_of_mem {size : Nat} {sizes : List Nat} (member : size ∈ sizes) :
    size ≤ total sizes := by
  induction sizes with
  | nil => simp at member
  | cons first rest ih =>
    rw [total_cons]
    rcases List.mem_cons.mp member with rfl | later
    · omega
    · have := ih later
      omega

namespace Generation

theorem addSizes_of_lt {size other : Nat} (small : size + other < sizeLimit) :
    addSizes size other = size + other :=
  Nat.mod_eq_of_lt small

theorem addSizes_of_le {size other : Nat} (fits : size + other ≤ methodBudget) :
    addSizes size other = size + other :=
  addSizes_of_lt (Nat.lt_of_le_of_lt fits (by decide))

/-- Whether a block accounts for its items and its prologue and fits into a method. -/
structure Block.Fits {α : Type} (prologue : Nat) (size : α → Nat) (block : Block α) : Prop where
  nonempty : block.items ≠ []
  size_eq : block.size = prologue + total (block.items.map size)
  size_le : block.size ≤ methodBudget

/-- Whether no item is so large that a machine word cannot hold its size together with that of a
block. -/
structure Addable {α : Type} (prologue : Nat) (size : α → Nat) (items : List α) : Prop where
  prologue_le : prologue ≤ methodBudget
  size_lt : ∀ item ∈ items, methodBudget + size item < sizeLimit

theorem prologueSize_le (sharedId : Bool) : prologueSize sharedId ≤ methodBudget := by
  cases sharedId <;> decide

theorem sizeLimit_eq : sizeLimit = 18446744073709551616 := rfl

theorem methodBudget_eq : methodBudget = 65531 := rfl

/-- The sizes of symbols are added as numbers are: no array is long enough to make a difference. -/
theorem addable_symbols (sharedId : Bool) (symbols : List Symbol) :
    Addable (prologueSize sharedId) (ResourceField.maxCodeSize sharedId) symbols where
  prologue_le := prologueSize_le sharedId
  size_lt := by
    rintro ⟨name, value, dependency⟩ -
    change methodBudget + Symbol.maxCodeSize sharedId ⟨name, value, dependency⟩ < sizeLimit
    rw [methodBudget_eq, sizeLimit_eq]
    cases value with
    | int n => cases sharedId <;> simp [Symbol.maxCodeSize]
    | array values =>
      have few : min values.length Symbol.maxElements ≤ 0x80000000000000 := Nat.min_le_right _ _
      simp only [Symbol.maxCodeSize]
      split <;> omega

/-- An array that fits a method has few elements, and claims the bytes for all of them. -/
theorem maxCodeSize_array_of_le {sharedId : Bool} {name : String} {values : List Int32}
    {dependency : Option String}
    (fits : Symbol.maxCodeSize sharedId ⟨name, .array values, dependency⟩ ≤ methodBudget) :
    values.length ≤ 8190 ∧
      Symbol.maxCodeSize sharedId ⟨name, .array values, dependency⟩ =
        8 + (if sharedId then 10 else 8) * values.length := by
  simp only [Symbol.maxCodeSize, Symbol.maxElements, methodBudget_eq] at fits ⊢
  cases sharedId
  · simp only [Bool.false_eq_true, if_false] at fits ⊢
    omega
  · simp only [if_true] at fits ⊢
    omega

section

variable {α : Type} {prologue : Nat} {size : α → Nat} {items : List α}

/-- An item of a block that fits into a method fits into one itself. -/
theorem Block.Fits.size_item_le {block : Block α} (fits : block.Fits prologue size) {item : α}
    (member : item ∈ block.items) : size item ≤ methodBudget := by
  have part := le_total_of_mem (List.mem_map_of_mem (f := size) member)
  have := fits.size_eq
  have := fits.size_le
  omega

theorem Addable.of_cons {item : α} (addable : Addable prologue size (item :: items)) :
    Addable prologue size items :=
  ⟨addable.prologue_le, fun other member =>
    addable.size_lt other (List.mem_cons_of_mem item member)⟩

theorem Addable.addSizes_eq (addable : Addable prologue size items) {item : α}
    (member : item ∈ items) {used : Nat} (used_le : used ≤ methodBudget) :
    addSizes used (size item) = used + size item := by
  have small := addable.size_lt item member
  exact addSizes_of_lt (by omega)

/-- Whether a block has items, which fit a method, and its size and its items with the last one
first are in some relation. -/
private def Block.Keeps (holds : Nat → List α → Prop) (block : Block α) : Prop :=
  block.items ≠ [] ∧ block.size ≤ methodBudget ∧ holds block.size block.items.reverse

private theorem Block.Keeps.of_opened {holds : Nat → List α → Prop} {used : Nat}
    {opened : List α} (begun : holds used opened) (some_item : opened ≠ [])
    (used_le : used ≤ methodBudget) : (Block.mk used opened.reverse).Keeps holds :=
  ⟨by simpa using some_item, used_le, by simpa using begun⟩

/-- What holds of a block that is begun, and is kept when an item is added that fits, holds of all
blocks; and together these are the items in order. -/
private theorem cutAfter_keeps {holds : Nat → List α → Prop} {finished blocks : List (Block α)}
    {used : Nat} {opened : List α} (start : holds prologue [])
    (step : ∀ used opened, ∀ item ∈ items, holds used opened →
      addSizes used (size item) ≤ methodBudget → holds (addSizes used (size item)) (item :: opened))
    (finished_keep : ∀ block ∈ finished, block.Keeps holds) (begun : holds used opened)
    (used_eq : opened = [] → used = prologue) (used_le : opened ≠ [] → used ≤ methodBudget)
    (done : cutAfter prologue size finished used opened items = .ok blocks) :
    (∀ block ∈ blocks, block.Keeps holds) ∧
      blocks.flatMap Block.items =
        finished.reverse.flatMap Block.items ++ (opened.reverse ++ items) := by
  -- The prologue alone is not held against the budget, so only an open block with items is bounded.
  induction items generalizing finished used opened with
  | nil =>
    cases opened with
    | nil =>
      simp only [cutAfter, Except.ok.injEq] at done
      subst done
      exact ⟨fun block member => finished_keep block (List.mem_reverse.mp member), by simp⟩
    | cons item others =>
      simp only [cutAfter, Except.ok.injEq] at done
      subst done
      refine ⟨?_, by simp⟩
      intro block member
      rcases List.mem_cons.mp (List.mem_reverse.mp member) with rfl | earlier
      · exact .of_opened begun (by simp) (used_le (by simp))
      · exact finished_keep block earlier
  | cons item rest ih =>
    have later_step := fun used opened other member =>
      step used opened other (List.mem_cons_of_mem item member)
    rw [cutAfter] at done
    split at done
    · rename_i fits
      have more := step used opened item List.mem_cons_self begun fits
      simpa using ih later_step finished_keep more (by simp) (fun _ => fits) done
    · split at done
      · rename_i full alone
        cases opened with
        | nil => exact absurd (used_eq rfl ▸ alone) full
        | cons last others =>
          have first := step prologue [] item List.mem_cons_self start alone
          have closed : ∀ block ∈ Block.mk used (last :: others).reverse :: finished,
              block.Keeps holds := by
            intro block member
            rcases List.mem_cons.mp member with rfl | earlier
            · exact .of_opened begun (by simp) (used_le (by simp))
            · exact finished_keep block earlier
          simpa using ih later_step closed first (by simp) (fun _ => alone) done
      · contradiction

private theorem cut_keeps (holds : Nat → List α → Prop) {blocks : List (Block α)}
    (start : holds prologue [])
    (step : ∀ used opened, ∀ item ∈ items, holds used opened →
      addSizes used (size item) ≤ methodBudget → holds (addSizes used (size item)) (item :: opened))
    (done : cut prologue size items = .ok blocks) :
    (∀ block ∈ blocks, block.Keeps holds) ∧ blocks.flatMap Block.items = items := by
  unfold cut at done
  simpa using cutAfter_keeps start step (by simp) start (fun _ => rfl) (by simp) done

/-- The blocks of a cut have items and fit, and together they are the items in order. Their sizes are
those of their items and of the prologue as words, which are the sums themselves unless an item is so
large that a word cannot hold them. -/
theorem cut_wraps {blocks : List (Block α)} (done : cut prologue size items = .ok blocks) :
    (∀ block ∈ blocks, block.items ≠ [] ∧ block.size ≤ methodBudget ∧
      block.size = (prologue + total (block.items.map size)) % sizeLimit) ∧
      blocks.flatMap Block.items = items := by
  have step : ∀ used opened, ∀ item ∈ items,
      used % sizeLimit = (prologue + total (opened.map size)) % sizeLimit →
        addSizes used (size item) ≤ methodBudget →
          addSizes used (size item) % sizeLimit =
            (prologue + total ((item :: opened).map size)) % sizeLimit := by
    intro used opened item _ same _
    rw [addSizes, Nat.mod_mod, Nat.add_mod, same, ← Nat.add_mod, List.map_cons, total_cons]
    congr 1
    omega
  obtain ⟨keep, together⟩ := cut_keeps
    (fun used opened =>
      used % sizeLimit = (prologue + total (opened.map size)) % sizeLimit) (by simp) step done
  refine ⟨fun block member => ?_, together⟩
  obtain ⟨some_item, fits, same⟩ := keep block member
  rw [List.map_reverse, total_reverse, Nat.mod_eq_of_lt] at same
  · exact ⟨some_item, fits, same⟩
  · exact Nat.lt_of_le_of_lt fits (by decide)

/-- The blocks of a cut of items whose sizes can be added fit, and together they are the items in
order. -/
theorem cut_fits {blocks : List (Block α)} (addable : Addable prologue size items)
    (done : cut prologue size items = .ok blocks) :
    (∀ block ∈ blocks, block.Fits prologue size) ∧ blocks.flatMap Block.items = items := by
  have step : ∀ used opened, ∀ item ∈ items,
      used ≤ methodBudget ∧ used = prologue + total (opened.map size) →
        addSizes used (size item) ≤ methodBudget →
          addSizes used (size item) ≤ methodBudget ∧
            addSizes used (size item) = prologue + total ((item :: opened).map size) := by
    rintro used opened item member ⟨bounded, same⟩ fits
    refine ⟨fits, ?_⟩
    rw [addable.addSizes_eq member bounded, same, List.map_cons, total_cons]
    omega
  obtain ⟨keep, together⟩ := cut_keeps
    (fun used opened =>
      used ≤ methodBudget ∧ used = prologue + total (opened.map size))
    ⟨addable.prologue_le, by simp⟩ step done
  refine ⟨fun block member => ?_, together⟩
  obtain ⟨some_item, fits, -, same⟩ := keep block member
  rw [List.map_reverse, total_reverse] at same
  exact ⟨some_item, same, fits⟩

end

section

variable {α : Type}

private theorem linkAfter_eq_append (methods : List (InitializerMethod α)) (ordinal start : Nat)
    (blocks : List (Block α)) :
    linkAfter methods ordinal start blocks =
      methods.reverse ++ linkAfter [] ordinal start blocks := by
  induction blocks generalizing methods ordinal start with
  | nil => simp [linkAfter]
  | cons block rest ih =>
    simp only [linkAfter]
    rw [ih, ih [_]]
    simp

/-- The first block becomes a method that calls the method of the second one. -/
theorem linkAfter_cons (ordinal start : Nat) (block : Block α) (rest : List (Block α)) :
    linkAfter [] ordinal start (block :: rest) =
      ⟨ordinal, block.size, start, block.items,
          if rest.isEmpty then none else some (ordinal + 1)⟩ ::
        linkAfter [] (ordinal + 1) (start + block.items.length) rest := by
  rw [linkAfter, linkAfter_eq_append]
  rfl

theorem map_ordinal_linkAfter (ordinal start : Nat) (blocks : List (Block α)) :
    (linkAfter [] ordinal start blocks).map InitializerMethod.ordinal =
      List.range' ordinal blocks.length := by
  induction blocks generalizing ordinal start with
  | nil => rfl
  | cons block rest ih =>
    rw [linkAfter_cons, List.map_cons, ih, List.length_cons, List.range'_succ]

/-- Each method of a chain is made of one of the blocks. -/
theorem exists_block_of_mem_linkAfter {ordinal start : Nat} {blocks : List (Block α)}
    {method : InitializerMethod α} (member : method ∈ linkAfter [] ordinal start blocks) :
    ∃ block ∈ blocks, method.codeSize = block.size ∧ method.fields = block.items := by
  induction blocks generalizing ordinal start with
  | nil => simp [linkAfter] at member
  | cons block rest ih =>
    rw [linkAfter_cons] at member
    rcases List.mem_cons.mp member with rfl | later
    · exact ⟨block, List.mem_cons_self, rfl, rfl⟩
    · obtain ⟨other, inside, facts⟩ := ih later
      exact ⟨other, List.mem_cons_of_mem block inside, facts⟩

/-- The methods of a chain and those that they call are among its positions. -/
theorem ordinal_lt_of_mem_linkAfter {ordinal start : Nat} {blocks : List (Block α)}
    {method : InitializerMethod α} (member : method ∈ linkAfter [] ordinal start blocks) :
    method.ordinal < ordinal + blocks.length ∧
      ∀ next ∈ method.next, next < ordinal + blocks.length := by
  induction blocks generalizing ordinal start with
  | nil => simp [linkAfter] at member
  | cons block rest ih =>
    rw [linkAfter_cons] at member
    rw [List.length_cons]
    rcases List.mem_cons.mp member with rfl | later
    · cases rest with
      | nil => simp
      | cons second others => simp
    · obtain ⟨place, called⟩ := ih later
      refine ⟨by omega, fun next known => ?_⟩
      have below := called next known
      omega

end

/-- The methods of a chain are those that the blocks of a cut are linked to. -/
theorem plan_eq_ok_iff {α : Type} [ResourceField α] {className : String} {sharedId : Bool}
    {fields : List α} {methods : List (InitializerMethod α)} :
    plan className sharedId fields = .ok methods ↔
      ∃ blocks,
        cut (prologueSize sharedId) (ResourceField.maxCodeSize sharedId) fields = .ok blocks ∧
          methods = link blocks := by
  unfold plan
  cases cut (prologueSize sharedId) (ResourceField.maxCodeSize sharedId) fields <;>
    simp [eq_comm]

private theorem initializerName_ne (n : Nat) : methodName 0 ≠ methodName (n + 1) := by
  intro same
  have chars := congrArg String.toList same
  rw [methodName, methodName, String.toList_append] at chars
  simp at chars

theorem methodName_injective : Function.Injective methodName := by
  intro first second same
  cases first with
  | zero =>
    cases second with
    | zero => rfl
    | succ n => exact absurd same (initializerName_ne n)
  | succ m =>
    cases second with
    | zero => exact absurd same.symm (initializerName_ne m)
    | succ n =>
      have digits : Nat.repr m = Nat.repr n := (String.append_right_inj "staticInit").mp same
      rw [Nat.repr_injective digits]

end Generation

end ResourceClasses
