/-!
# Sets of code points

A set of characters as the increasing list of its ranges of code points, both ends included.
-/

namespace SwiftScribe.Text

/-- Ranges of code points, both ends included, in increasing order. -/
abbrev Ranges := List (Nat × Nat)

namespace Ranges

/-- Whether a code point lies in one of the ranges. Since they increase, the search stops at the
first range above the code point. -/
def covers : Ranges → Nat → Bool
  | [], _ => false
  | (low, high) :: rest, n => !(n < low) && (n ≤ high || covers rest n)

end Ranges

end SwiftScribe.Text
