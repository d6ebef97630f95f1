/-!
# MarkupQuery.Text.CodeRange — closed ranges of code points

A property of characters is written down as the list of the closed ranges
`(first, last)` of code points that have it, in increasing order. The lists in the
sibling modules follow Unicode 17 and leave out ASCII, which every test on
characters decides before it looks at a list.
-/

namespace MarkupQuery.Text

/-- The code point `n` lies in one of the closed `ranges`. -/
def inRanges (ranges : List (Nat × Nat)) (n : Nat) : Bool :=
  ranges.any fun r => r.1 ≤ n && n ≤ r.2

/-- A code point lies in the ranges exactly when one of them holds it. -/
theorem inRanges_iff {ranges : List (Nat × Nat)} {n : Nat} :
    inRanges ranges n = true ↔ ∃ r ∈ ranges, r.1 ≤ n ∧ n ≤ r.2 := by
  simp [inRanges]

end MarkupQuery.Text
