/-!
Sets of code points as inversion lists: the sorted places where membership changes. A code point
is a member when an odd number of these places is at or below it.
-/
namespace RecordRows.Text

structure CodePoints where
  bounds : Array Nat

namespace CodePoints

/-- The number of bounds at or below `c`, searched between `low` and `high`. -/
def rank (s : CodePoints) (c : Nat) (low high : Nat) : Nat :=
  if h : low < high then
    let mid := (low + high) / 2
    if s.bounds.getD mid 0 ≤ c then s.rank c (mid + 1) high else s.rank c low mid
  else low
termination_by high - low
decreasing_by
  all_goals omega

def contains (s : CodePoints) (c : Char) : Bool := s.rank c.toNat 0 s.bounds.size % 2 == 1

end CodePoints

end RecordRows.Text
