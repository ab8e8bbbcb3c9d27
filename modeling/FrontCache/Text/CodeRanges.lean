/-!
Sets of Unicode code points kept as lists of closed ranges, first and last code
point included, in increasing order. The tables of character properties are
written this way: a property of a few thousand code points takes a few hundred
ranges.
-/
namespace FrontCache.Text

/-- `n` lies in one of the closed ranges. -/
def inRanges (rs : List (Nat × Nat)) (n : Nat) : Bool := rs.any fun r => r.1 ≤ n && n ≤ r.2

theorem inRanges_iff (rs : List (Nat × Nat)) (n : Nat) :
    inRanges rs n = true ↔ ∃ r ∈ rs, r.1 ≤ n ∧ n ≤ r.2 := by
  simp [inRanges]

end FrontCache.Text
