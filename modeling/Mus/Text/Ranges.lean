/-! Sets of code points given as ascending lists of closed ranges. -/
namespace Mus.Text

/-- Closed ranges of code points. -/
abbrev Ranges := List (Nat × Nat)

def Ranges.contains (ranges : Ranges) (point : Nat) : Bool :=
  ranges.any fun range => decide (range.1 ≤ point) && decide (point ≤ range.2)

/-- A code point belongs to the set when one of the ranges holds it. -/
theorem Ranges.contains_iff {ranges : Ranges} {point : Nat} :
    ranges.contains point = true ↔ ∃ range ∈ ranges, range.1 ≤ point ∧ point ≤ range.2 := by
  simp [Ranges.contains]

end Mus.Text
