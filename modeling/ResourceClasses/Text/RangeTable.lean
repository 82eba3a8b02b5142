/-!
Character tables: a property of characters is a list of closed ranges of code points in ascending
order, and a look-up ends at the first range that starts beyond the code point.
-/

set_option autoImplicit false

namespace ResourceClasses.Text

/-- Whether a code point lies in one of the ranges of an ascending table. -/
def inRanges : List (Nat × Nat) → Nat → Bool
  | [], _ => false
  | (first, last) :: rest, n =>
    if n < first then false else if n ≤ last then true else inRanges rest n

end ResourceClasses.Text
