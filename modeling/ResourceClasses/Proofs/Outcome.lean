import Mathlib.Data.List.Forall2
import ResourceClasses.Collect

/-!
Steps that can fail, one after another, one for each item of a list or until nothing is left: when
all of them succeed, each has a result of its own, and otherwise the first that fails says why.
-/

set_option autoImplicit false

namespace ResourceClasses

/-- Whether an item is the first one of a list that does not have a property. -/
inductive FirstWithout {α : Type} (good : α → Prop) : List α → α → Prop
  | here {item : α} {rest : List α} (bad : ¬good item) : FirstWithout good (item :: rest) item
  | later {first item : α} {rest : List α} (holds : good first)
      (behind : FirstWithout good rest item) : FirstWithout good (first :: rest) item

section

variable {α : Type} {good : α → Prop} {items : List α} {item : α}

theorem FirstWithout.mem (first : FirstWithout good items item) : item ∈ items := by
  induction first with
  | here => exact List.mem_cons_self
  | later _ _ ih => exact List.mem_cons_of_mem _ ih

theorem FirstWithout.bad (first : FirstWithout good items item) : ¬good item := by
  induction first with
  | here bad => exact bad
  | later _ _ ih => exact ih

theorem firstWithout_cons_iff {first : α} {rest : List α} :
    FirstWithout good (first :: rest) item ↔
      ¬good first ∧ item = first ∨ good first ∧ FirstWithout good rest item := by
  constructor
  · intro found
    cases found with
    | here bad => exact .inl ⟨bad, rfl⟩
    | later holds behind => exact .inr ⟨holds, behind⟩
  · rintro (⟨bad, rfl⟩ | ⟨holds, behind⟩)
    · exact .here bad
    · exact .later holds behind

/-- Items that do not all have a property have a first one without it. -/
theorem exists_firstWithout_iff :
    (∃ item, FirstWithout good items item) ↔ ¬∀ item ∈ items, good item := by
  constructor
  · rintro ⟨item, first⟩ all
    exact first.bad (all item first.mem)
  · intro missing
    induction items with
    | nil => exact absurd (fun _ member => nomatch member) missing
    | cons head rest ih =>
      by_cases holds : good head
      · have missing_rest : ¬∀ item ∈ rest, good item := by
          intro all
          exact missing (List.forall_mem_cons.mpr ⟨holds, all⟩)
        obtain ⟨item, behind⟩ := ih missing_rest
        exact ⟨item, .later holds behind⟩
      · exact ⟨head, .here holds⟩

/-- Dropping items that have a property leaves the first one without it. -/
theorem firstWithout_filter_iff {keep : α → Bool}
    (dropped : ∀ item ∈ items, keep item = false → good item) :
    FirstWithout good (items.filter keep) item ↔ FirstWithout good items item := by
  induction items with
  | nil => rfl
  | cons head rest ih =>
    have same := ih fun other member => dropped other (List.mem_cons_of_mem _ member)
    cases kept : keep head with
    | true =>
      rw [List.filter_cons_of_pos kept, firstWithout_cons_iff, firstWithout_cons_iff, same]
    | false =>
      have holds := dropped head List.mem_cons_self kept
      have skipped : ¬keep head = true := by simp [kept]
      rw [List.filter_cons_of_neg skipped, same, firstWithout_cons_iff]
      simp [holds]

end

section

variable {ε α β : Type}

/-- Two steps succeed when the first one does and the second one does with its result. -/
theorem bind_eq_ok_iff {first : Except ε α} {next : α → Except ε β} {result : β} :
    (first >>= next) = .ok result ↔ ∃ value, first = .ok value ∧ next value = .ok result := by
  cases first with
  | error e =>
    constructor
    · intro done
      contradiction
    · rintro ⟨_, failed, _⟩
      contradiction
  | ok value =>
    constructor
    · exact fun done => ⟨value, rfl, done⟩
    · rintro ⟨_, ⟨⟩, done⟩
      exact done

/-- Two steps fail when the first one does, or the second one with the result of the first. -/
theorem bind_eq_error_iff {first : Except ε α} {next : α → Except ε β} {e : ε} :
    (first >>= next) = .error e ↔
      first = .error e ∨ ∃ value, first = .ok value ∧ next value = .error e := by
  cases first with
  | error other =>
    constructor
    · exact fun failed => .inl (congrArg Except.error (Except.error.inj failed))
    · rintro (failed | ⟨_, done, _⟩)
      · cases failed
        rfl
      · contradiction
  | ok value =>
    constructor
    · exact fun failed => .inr ⟨value, rfl, failed⟩
    · rintro (failed | ⟨_, ⟨⟩, failed⟩)
      · contradiction
      · exact failed

theorem forall₂_of_mapM {step : α → Except ε β} {items : List α} {results : List β}
    (done : items.mapM step = .ok results) :
    List.Forall₂ (fun item result => step item = .ok result) items results := by
  induction items generalizing results with
  | nil =>
    cases done
    exact .nil
  | cons item rest ih =>
    rw [List.mapM_cons] at done
    obtain ⟨result, first, done⟩ := bind_eq_ok_iff.mp done
    obtain ⟨later, others, done⟩ := bind_eq_ok_iff.mp done
    cases done
    exact .cons first (ih others)

/-- Steps for the items of a list fail with the error of the first one that fails. -/
theorem mapM_eq_error_iff {step : α → Except ε β} {items : List α} {e : ε} :
    items.mapM step = .error e ↔
      ∃ item, FirstWithout (fun item => ∃ result, step item = .ok result) items item ∧
        step item = .error e := by
  induction items with
  | nil =>
    constructor
    · intro failed
      contradiction
    · rintro ⟨_, first, _⟩
      contradiction
  | cons head rest ih =>
    rw [List.mapM_cons, bind_eq_error_iff]
    constructor
    · rintro (failed | ⟨result, done, failed⟩)
      · refine ⟨head, .here ?_, failed⟩
        rintro ⟨result, done⟩
        rw [failed] at done
        contradiction
      · rcases bind_eq_error_iff.mp failed with behind | ⟨_, _, never⟩
        · obtain ⟨item, first, same⟩ := ih.mp behind
          exact ⟨item, .later ⟨result, done⟩ first, same⟩
        · contradiction
    · rintro ⟨item, first, failed⟩
      cases first with
      | here _ => exact .inl failed
      | later holds behind =>
        obtain ⟨result, done⟩ := holds
        exact .inr ⟨result, done, bind_eq_error_iff.mpr (.inl (ih.mpr ⟨item, behind, failed⟩))⟩

theorem exists_mapM_iff {step : α → Except ε β} {items : List α} :
    (∃ results, items.mapM step = .ok results) ↔
      ∀ item ∈ items, ∃ result, step item = .ok result := by
  constructor
  · rintro ⟨results, done⟩
    by_contra missing
    obtain ⟨item, first⟩ := exists_firstWithout_iff.mpr missing
    cases outcome : step item with
    | ok result => exact first.bad ⟨result, outcome⟩
    | error e =>
      have failed := mapM_eq_error_iff.mpr ⟨item, first, outcome⟩
      rw [done] at failed
      contradiction
  · intro each
    cases outcome : items.mapM step with
    | ok results => exact ⟨results, rfl⟩
    | error e =>
      obtain ⟨item, first, -⟩ := mapM_eq_error_iff.mp outcome
      exact absurd (each item first.mem) first.bad

end

section

variable {α β γ : Type} {related : α → β → Prop} {first : List α} {second : List β}

theorem filterMap_eq_of_forall₂ {f : α → Option γ} {g : β → Option γ}
    (each : List.Forall₂ related first second)
    (same : ∀ item other, related item other → g other = f item) :
    second.filterMap g = first.filterMap f := by
  induction each with
  | nil => rfl
  | cons head _ ih => rw [List.filterMap_cons, List.filterMap_cons, same _ _ head, ih]

theorem map_eq_of_forall₂ {f : α → γ} {g : β → γ} (each : List.Forall₂ related first second)
    (same : ∀ item other, related item other → g other = f item) :
    second.map g = first.map f := by
  rw [← List.filterMap_eq_map, ← List.filterMap_eq_map]
  exact filterMap_eq_of_forall₂ each fun item other related =>
    congrArg some (same item other related)

theorem exists_forall₂ (each : ∀ item ∈ first, ∃ other, related item other) :
    ∃ others, List.Forall₂ related first others := by
  induction first with
  | nil => exact ⟨[], .nil⟩
  | cons item rest ih =>
    rw [List.forall_mem_cons] at each
    obtain ⟨other, head⟩ := each.1
    obtain ⟨others, later⟩ := ih each.2
    exact ⟨other :: others, .cons head later⟩

theorem exists_of_mem_forall₂ (each : List.Forall₂ related first second) {other : β}
    (member : other ∈ second) : ∃ item ∈ first, related item other := by
  induction each with
  | nil => contradiction
  | cons head _ ih =>
    rcases List.mem_cons.mp member with rfl | later
    · exact ⟨_, List.mem_cons_self, head⟩
    · obtain ⟨item, inside, same⟩ := ih later
      exact ⟨item, List.mem_cons_of_mem _ inside, same⟩

end

section

variable {α ε σ : Type}

/-- The items that steps take off a state, until one reports the last state. -/
inductive Collects (step : σ → Except ε (Step α σ)) : σ → List α → σ → Prop
  | done {s last : σ} (ends : step s = .ok (.done last)) : Collects step s [] last
  | item {s rest last : σ} {item : α} {items : List α} (taken : step s = .ok (.item item rest))
      (later : Collects step rest items last) : Collects step s (item :: items) last

/-- Collecting goes on until a step reports the end, when each item leaves a smaller state. -/
theorem collect_eq_ok_iff {step : σ → Except ε (Step α σ)} {size : σ → Nat}
    (shrinks : ∀ s item rest, step s = .ok (.item item rest) → size rest < size s)
    {s last : σ} {items : List α} :
    collect size step s = .ok (items, last) ↔ Collects step s items last := by
  constructor
  · intro collected
    induction bound : size s using Nat.strongRecOn generalizing s items with
    | _ n ih =>
      rw [collect_eq size shrinks] at collected
      split at collected
      · contradiction
      · rename_i ends
        cases collected
        exact .done ends
      · rename_i item rest taken
        cases more : collect size step rest with
        | error e =>
          rw [more] at collected
          contradiction
        | ok found =>
          rw [more] at collected
          cases collected
          exact .item taken (ih _ (bound ▸ shrinks _ _ _ taken) more rfl)
  · intro collects
    induction collects with
    | done ends => rw [collect_eq size shrinks, ends]
    | item taken _ ih =>
      rw [collect_eq size shrinks, taken]
      dsimp only
      rw [ih]
      rfl

/-- Whether a step fails after others have taken items off a state. -/
inductive StepFails (step : σ → Except ε (Step α σ)) : σ → ε → Prop
  | here {s : σ} {e : ε} (failed : step s = .error e) : StepFails step s e
  | later {s rest : σ} {item : α} {e : ε} (taken : step s = .ok (.item item rest))
      (fails : StepFails step rest e) : StepFails step s e

/-- Collecting fails where a step does. -/
theorem collect_eq_error_iff {step : σ → Except ε (Step α σ)} {size : σ → Nat}
    (shrinks : ∀ s item rest, step s = .ok (.item item rest) → size rest < size s)
    {s : σ} {e : ε} : collect size step s = .error e ↔ StepFails step s e := by
  constructor
  · intro failed
    induction bound : size s using Nat.strongRecOn generalizing s with
    | _ n ih =>
      rw [collect_eq size shrinks] at failed
      split at failed
      · rename_i failed_here
        cases failed
        exact .here failed_here
      · contradiction
      · rename_i item rest taken
        cases more : collect size step rest with
        | error other =>
          rw [more] at failed
          cases failed
          exact .later taken (ih _ (bound ▸ shrinks _ _ _ taken) more rfl)
        | ok found =>
          rw [more] at failed
          contradiction
  · intro fails
    induction fails with
    | here failed => rw [collect_eq size shrinks, failed]
    | later taken _ ih =>
      rw [collect_eq size shrinks, taken]
      dsimp only
      rw [ih]
      rfl

end

end ResourceClasses
