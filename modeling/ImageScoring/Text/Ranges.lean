/-!
# Ranges of characters

A class of characters is told by ranges of code points, both ends included, in ascending order.
-/

namespace ImageScoring.Text

/-- Whether a character lies in one of the ranges. -/
def inRanges (ranges : List (Nat × Nat)) (c : Char) : Bool :=
  ranges.any fun (low, high) => low ≤ c.toNat && c.toNat ≤ high

/-- Whether ranges are in ascending order, with a gap between any two of them. -/
def isAscending : List (Nat × Nat) → Bool
  | [] => true
  | [(low, high)] => low ≤ high
  | (low, high) :: (next, last) :: rest =>
    low ≤ high && high + 1 < next && isAscending ((next, last) :: rest)

end ImageScoring.Text
