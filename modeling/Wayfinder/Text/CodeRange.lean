/-!
# Ranges of code points

A character property is kept as an ascending list of closed ranges of code
points.  `inRanges` walks such a list and stops at the first range that starts
above the code point, so a character early in the tables is decided quickly.

The tables themselves are in `Wayfinder.Text.Alphabetic`, `Wayfinder.Text.Mark`,
`Wayfinder.Text.Numeral` and `Wayfinder.Text.Blank`.
-/

namespace Wayfinder.Text

/-- Whether `code` lies in one of the ranges.  The ranges must be ascending. -/
def inRanges : List (Nat × Nat) → Nat → Bool
  | [], _ => false
  | (low, high) :: more, code =>
      if code < low then false
      else if code ≤ high then true
      else inRanges more code

end Wayfinder.Text
