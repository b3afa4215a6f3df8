/-!
# Ranges of characters

A character class given by a standard is a list of ranges of code points.
-/

namespace TiddlerShelf.Text

/-- Ranges of code points, both ends included. -/
abbrev CharRanges := List (Nat × Nat)

/-- Whether a code point lies in one of the ranges. -/
def CharRanges.covers (ranges : CharRanges) (n : Nat) : Bool :=
  ranges.any fun (first, last) => first ≤ n && n ≤ last

end TiddlerShelf.Text
