/-! Sets of characters given by ranges of code points. -/
namespace ConfigModules

/-- Whether a code point lies in one of the ranges, which ascend. -/
def inRanges (n : Nat) : List (Nat × Nat) → Bool
  | [] => false
  | (low, high) :: more => if n < low then false else n ≤ high || inRanges n more

end ConfigModules
