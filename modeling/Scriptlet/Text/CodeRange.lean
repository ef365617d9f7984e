/-!
# Ranges of code points

A property of characters is stored as the list of its closed ranges, in increasing order.
-/
namespace Scriptlet.Text

/-- A closed range of code points, by its ends. -/
abbrev CodeRange := Nat × Nat

/-- Whether a character's code point lies in one of the ranges. -/
def inRanges (ranges : List CodeRange) (c : Char) : Bool :=
  ranges.any fun r => r.1 ≤ c.toNat && c.toNat ≤ r.2

end Scriptlet.Text
