/-!
Collecting: a step takes one item off a state, until it reports that there is nothing left.

Each item leaves a smaller state, so the size of the first state bounds the number of steps. Main
statement: `collect_eq`, which takes the first step of collecting.
-/

set_option autoImplicit false

namespace ResourceClasses

/-- What a step does with a state: it takes an item off it, or leaves it as the last one. -/
inductive Step (α σ : Type)
  | item (item : α) (rest : σ)
  | done (last : σ)
  deriving DecidableEq, Repr

/-- Takes at most the given number of items off a state, after those collected already, which are
given with the last one first. -/
@[specialize]
def collectUpTo {α ε σ : Type} (step : σ → Except ε (Step α σ)) :
    Nat → List α → σ → Except ε (List α × σ)
  | 0, items, s => .ok (items.reverse, s)
  | n + 1, items, s =>
    match step s with
    | .error e => .error e
    | .ok (.done last) => .ok (items.reverse, last)
    | .ok (.item item rest) => collectUpTo step n (item :: items) rest

/-- Takes items off a state until the step reports the end, with the state it left. -/
@[inline]
def collect {α ε σ : Type} (size : σ → Nat) (step : σ → Except ε (Step α σ)) (s : σ) :
    Except ε (List α × σ) :=
  collectUpTo step (size s + 1) [] s

section

variable {α ε σ : Type} {step : σ → Except ε (Step α σ)}

/-- Items collected already stand in front of those that follow. -/
theorem collectUpTo_append (n : Nat) (items : List α) (s : σ) :
    collectUpTo step n items s =
      (collectUpTo step n [] s).map fun (more, last) => (items.reverse ++ more, last) := by
  induction n generalizing items s with
  | zero => simp [collectUpTo, Except.map]
  | succ n ih =>
    simp only [collectUpTo]
    split
    · simp [Except.map]
    · simp [Except.map]
    · rename_i item rest _
      rw [ih (item :: items) rest, ih [item] rest]
      cases collectUpTo step n [] rest <;> simp [Except.map]

/-- More steps than the size of a state change nothing. -/
theorem collectUpTo_congr (size : σ → Nat)
    (shrinks : ∀ s item rest, step s = .ok (.item item rest) → size rest < size s)
    {n m : Nat} (items : List α) (s : σ) (hn : size s < n) (hm : size s < m) :
    collectUpTo step n items s = collectUpTo step m items s := by
  induction n generalizing m items s with
  | zero => omega
  | succ n ih =>
    cases m with
    | zero => omega
    | succ m =>
      simp only [collectUpTo]
      split
      · rfl
      · rfl
      · rename_i item rest h
        have := shrinks s item rest h
        exact ih (item :: items) rest (by omega) (by omega)

/-- Collecting takes the first step and goes on with the state that it leaves. -/
theorem collect_eq (size : σ → Nat)
    (shrinks : ∀ s item rest, step s = .ok (.item item rest) → size rest < size s) (s : σ) :
    collect size step s =
      match step s with
      | .error e => .error e
      | .ok (.done last) => .ok ([], last)
      | .ok (.item item rest) =>
        (collect size step rest).map fun (items, last) => (item :: items, last) := by
  rw [collect, collectUpTo]
  split
  · rfl
  · rfl
  · rename_i item rest h
    have := shrinks s item rest h
    rw [collectUpTo_append (size s) [item] rest,
      collectUpTo_congr size shrinks [] rest this (Nat.lt_succ_self (size rest))]
    rfl

end

end ResourceClasses
