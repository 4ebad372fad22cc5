/-!
Character classes given as tables of code point ranges.

* `InRanges`: a character lies in one of the ranges of a table, ends included.
* `inRanges`: the same as a test.
-/

namespace Bringup.Text

set_option autoImplicit false

/-- Ranges of code points, both ends included. -/
abbrev Ranges := List (Nat × Nat)

/-- The character lies in some range of the table. -/
def InRanges (table : Ranges) (c : Char) : Prop :=
  ∃ r ∈ table, r.1 ≤ c.toNat ∧ c.toNat ≤ r.2

/-- Linear search, since the tables are consulted for the rare characters beyond ASCII. -/
def inRanges (table : Ranges) (c : Char) : Bool :=
  table.any fun r => decide (r.1 ≤ c.toNat) && decide (c.toNat ≤ r.2)

theorem inRanges_iff (table : Ranges) (c : Char) :
    inRanges table c = true ↔ InRanges table c := by
  simp [inRanges, InRanges]

end Bringup.Text
