/-!
# Ranges of code points

A character class is a list of closed ranges, ascending and apart.
-/
namespace GraphQuery.Text

def inRanges (ranges : List (Nat × Nat)) (n : Nat) : Bool :=
  ranges.any fun r => r.1 ≤ n && n ≤ r.2

end GraphQuery.Text
