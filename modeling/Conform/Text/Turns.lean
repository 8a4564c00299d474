/-!
# Turning points of a set of characters

A set of code points given by the places where membership changes: a code point is a member exactly
when an odd number of turning points are at or below it. The lists are ascending.
-/

namespace Conform.Text

/-- How many entries of the ascending `points` from `low` to before `high` are at most `x`, added
to `low`: the number of all entries at most `x` when those before `low` are and those from `high`
on are not. -/
def countUpTo (points : Array Nat) (x low high : Nat) : Nat :=
  if h : low < high then
    let mid := (low + high) / 2
    if points.getD mid 0 ≤ x then countUpTo points x (mid + 1) high else countUpTo points x low mid
  else low
  termination_by high - low

/-- Whether `c` is in the set with these turning points. -/
def inTurns (points : Array Nat) (c : Char) : Bool :=
  countUpTo points c.toNat 0 points.size % 2 == 1

end Conform.Text
