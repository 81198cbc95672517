/-
Tables of code point ranges.

* `Ranges`: a character class written as a list of closed intervals of code points.
* `Ranges.mem_iff`: membership is membership in one of the intervals.
-/
namespace Blockscribe.Text

/-- A character class as a list of closed intervals of code points. -/
abbrev Ranges := List (Nat × Nat)

namespace Ranges

/-- Whether a code point lies in one of the intervals. -/
def mem (table : Ranges) (n : Nat) : Bool := table.any fun r => r.1 ≤ n && n ≤ r.2

/-- Membership is membership in one of the intervals. -/
theorem mem_iff {table : Ranges} {n : Nat} :
    table.mem n = true ↔ ∃ r ∈ table, r.1 ≤ n ∧ n ≤ r.2 := by
  simp [mem]

/-- The start of the interval that holds a code point. -/
def start? (table : Ranges) (n : Nat) : Option Nat :=
  (table.find? fun r => r.1 ≤ n && n ≤ r.2).map Prod.fst

end Ranges

end Blockscribe.Text
