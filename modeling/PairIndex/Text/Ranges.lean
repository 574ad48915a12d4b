/-! Sets of characters given by sorted ranges of code points. -/

namespace PairIndex.Text

/-- Whether a number lies in one of some ranges, given in rising order; the search ends at the first range above it. -/
def inRanges (n : Nat) : List (Nat × Nat) → Bool
  | [] => false
  | (low, high) :: rest => if n < low then false else if n ≤ high then true else inRanges n rest

end PairIndex.Text
