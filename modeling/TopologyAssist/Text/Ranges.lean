/-!
Sets of characters, as tables of code points.
-/

namespace TopologyAssist

/-- A set of code points: ranges with their first and last one, in ascending order. -/
abbrev CodeRanges := List (Nat × Nat)

namespace CodeRanges

/-- The code point lies in one of the ranges. The search ends at the first range that lies
behind it. -/
def covers : CodeRanges → Nat → Bool
  | [], _ => false
  | (first, last) :: rest, n => if n < first then false else n ≤ last || covers rest n

end CodeRanges

end TopologyAssist
