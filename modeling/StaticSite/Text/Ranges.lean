/-!
# Ranges of code points

A character class is a list of closed intervals of code points.
-/

namespace StaticSite.Text

/-- Closed intervals of code points, in ascending order. -/
abbrev Ranges := List (Nat × Nat)

/-- Whether the character lies in one of the intervals. -/
def Ranges.has (r : Ranges) (c : Char) : Bool :=
  r.any fun (lo, hi) => lo ≤ c.toNat && c.toNat ≤ hi

end StaticSite.Text
