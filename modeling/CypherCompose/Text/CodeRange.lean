/-!
# Ranges of code points

A property of characters is kept as a list of closed ranges of code points, ascending and apart.
-/

namespace CypherCompose

/-- The code points from the first to the second. -/
abbrev CodeRange := Nat × Nat

namespace CodeRange

/-- Whether one of the ranges has a code point.  The ranges ascend, so the search ends at the first
that lies above it. -/
def anyHas : List CodeRange → Nat → Bool
  | [], _ => false
  | r :: rs, n => if n < r.1 then false else n ≤ r.2 || anyHas rs n

/-- Whether the ranges ascend with a gap between any two. -/
def areApart : List CodeRange → Bool
  | [] => true
  | [r] => r.1 ≤ r.2
  | r :: s :: rs => r.1 ≤ r.2 && r.2 + 1 < s.1 && areApart (s :: rs)

/-- The number of code points in the ranges. -/
def count : List CodeRange → Nat
  | [] => 0
  | r :: rs => r.2 + 1 - r.1 + count rs

end CodeRange

end CypherCompose
