/-!
# Sets of code points

A property of the Unicode standard is a set of code points. The tables of this folder write such a
set as a list of closed ranges, as it is in Unicode 16, and `Ranges.contains` reads it. The tables
start beyond ASCII: each property answers for ASCII directly, so that facts about ASCII text need no
table.
-/

namespace DocHarvest.Unicode

/-- A set of code points as closed ranges. -/
abbrev Ranges := List (Nat × Nat)

/-- Whether a character lies in one of the ranges. -/
def Ranges.contains (ranges : Ranges) (c : Char) : Bool :=
  ranges.any fun r => r.1 ≤ c.toNat && c.toNat ≤ r.2

end DocHarvest.Unicode
