/-! # Ranges of characters

A property of characters is given as a list of closed ranges of code points, ascending and apart. -/

namespace RuleFilter.Text

/-- Whether the code point of a character lies in one of the ranges. -/
def inRanges (ranges : List (Nat × Nat)) (c : Char) : Bool :=
  ranges.any fun (low, high) => low ≤ c.toNat && c.toNat ≤ high

end RuleFilter.Text
