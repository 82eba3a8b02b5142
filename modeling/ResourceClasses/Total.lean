/-!
Totals: the sum of a list of sizes.
-/

set_option autoImplicit false

namespace ResourceClasses

def total (sizes : List Nat) : Nat :=
  sizes.foldl (fun sum size => sum + size) 0

theorem foldl_add (sizes : List Nat) (start : Nat) :
    sizes.foldl (fun sum size => sum + size) start = start + total sizes := by
  induction sizes generalizing start with
  | nil => rfl
  | cons size rest ih =>
    rw [total, List.foldl_cons, List.foldl_cons, ih, ih (0 + size)]
    omega

@[simp]
theorem total_nil : total [] = 0 := rfl

@[simp]
theorem total_cons (size : Nat) (rest : List Nat) : total (size :: rest) = size + total rest := by
  rw [total, List.foldl_cons, foldl_add]
  omega

@[simp]
theorem total_append (first second : List Nat) :
    total (first ++ second) = total first + total second := by
  induction first with
  | nil => simp
  | cons size rest ih => simp [ih, Nat.add_assoc]

end ResourceClasses
