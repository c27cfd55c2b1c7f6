/-
Sets of code points as boundary lists, the form the Unicode tables are kept in.

A table lists in increasing order the code points at which membership changes,
beginning outside the set. A code point belongs to the set exactly when the
number of boundaries at or below it is odd.
-/

namespace TextGrammar.Unicode

/-- A set of code points, given by the increasing sequence of its boundaries. -/
structure Ranges where
  bounds : Array Nat

namespace Ranges

/-- How many boundaries among those from `lo` up to `hi` excluded are at most `code`, plus `lo`.
All boundaries before `lo` are at most `code`, all from `hi` on are above it. Halving the interval
`steps` times is enough when its length is below `2 ^ steps`. -/
def countUpTo (bounds : Array Nat) (code : Nat) : (steps lo hi : Nat) → Nat
  | 0, lo, _ => lo
  | steps + 1, lo, hi =>
    if hi ≤ lo then lo
    else
      let mid := (lo + hi) / 2
      if bounds.getD mid 0 ≤ code then countUpTo bounds code steps (mid + 1) hi
      else countUpTo bounds code steps lo mid

/-- Membership: an odd number of boundaries lies at or below the code point. -/
def contains (set : Ranges) (code : Nat) : Bool :=
  countUpTo set.bounds code 16 0 set.bounds.size % 2 == 1

end Ranges

end TextGrammar.Unicode
