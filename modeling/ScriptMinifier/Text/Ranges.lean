/-!
# Ranges of code points

Character classes are given as ascending lists of ranges, both ends included.
-/

namespace ScriptMinifier

/-- Is `n` in one of the ranges? They ascend, so the search ends at the first
one above `n`. -/
def inRanges (n : Nat) : List (Nat × Nat) → Bool
  | [] => false
  | (low, high) :: rest =>
      if n < low then false else n ≤ high || inRanges n rest

end ScriptMinifier
