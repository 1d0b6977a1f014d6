/-
# Ranges of code points

A property of characters is given by the ranges of code points that have it.
-/

namespace TemplatePasses.Text

/-- Ranges of code points, both ends included. -/
abbrev Ranges := List (Nat × Nat)

/-- Whether one of the ranges holds the code point. -/
def Ranges.has (ranges : Ranges) (point : Nat) : Bool :=
  ranges.any fun r => decide (r.1 ≤ point) && decide (point ≤ r.2)

end TemplatePasses.Text
