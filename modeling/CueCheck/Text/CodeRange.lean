/-!
Sets of code points given as tables of ranges.
-/

namespace CueCheck.Text

/-- Whether a code point lies in one of the ranges, both ends included. -/
def inRanges (table : List (Nat × Nat)) (n : Nat) : Bool :=
  table.any fun range => range.1 ≤ n && n ≤ range.2

theorem inRanges_eq_true_iff {table : List (Nat × Nat)} {n : Nat} :
    inRanges table n = true ↔ ∃ range ∈ table, range.1 ≤ n ∧ n ≤ range.2 := by
  simp [inRanges]

end CueCheck.Text
