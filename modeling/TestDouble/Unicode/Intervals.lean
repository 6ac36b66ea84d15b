/-!
# Tables of code points

A character class is a list of closed intervals of code points in increasing order. Membership
walks the list and stops at the first interval that starts behind the code point: the intervals
after it start later still, so none of them can hold it. The code points whose encodings in UTF-8
start with the same byte are an interval too, so a table also tells which first bytes it knows.
-/

namespace TestDouble.Unicode

/-- Closed intervals `(first, last)` of code points, increasing and disjoint. -/
abbrev Intervals := List (Nat × Nat)

namespace Intervals

/-- Whether an interval of an increasing table holds the code point. -/
def contains : Intervals → Nat → Bool
  | [], _ => false
  | (first, last) :: rest, n =>
    if n < first then false else if n ≤ last then true else contains rest n

/-- Whether an interval of an increasing table has a code point in common with `low` to `high`. -/
def meets : Intervals → (low high : Nat) → Bool
  | [], _, _ => false
  | (first, last) :: rest, low, high =>
    if high < first then false else if low ≤ last then true else meets rest low high

end Intervals

/-- The first and the last of the code points whose encodings in UTF-8 start with the same byte as
that of the given one. -/
def leadBlock (n : Nat) : Nat × Nat :=
  if n < 0x80 then (n, n)
  else if n < 0x800 then (n / 0x40 * 0x40, n / 0x40 * 0x40 + 0x3F)
  else if n < 0x1000 then (0x800, 0xFFF)
  else if n < 0x10000 then (n / 0x1000 * 0x1000, n / 0x1000 * 0x1000 + 0xFFF)
  else if n < 0x40000 then (0x10000, 0x3FFFF)
  else (n / 0x40000 * 0x40000, n / 0x40000 * 0x40000 + 0x3FFFF)

/-- Whether the table holds a code point whose encoding in UTF-8 starts with the same byte as that
of the given one. -/
def Intervals.sharesLead (table : Intervals) (n : Nat) : Bool :=
  table.meets (leadBlock n).1 (leadBlock n).2

end TestDouble.Unicode
