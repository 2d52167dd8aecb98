/-!
# Ranges of characters

A class of characters is a list of ranges of code points, each with its first and its last one.
-/

namespace TrainingJobs.Text

/-- Whether a number lies in one of the ranges. -/
def inRanges (n : Nat) (ranges : List (Nat × Nat)) : Bool := ranges.any fun r => r.1 ≤ n && n ≤ r.2

end TrainingJobs.Text
