/-
FreshTag/Text/Ranges.lean

Properties of characters are tables of closed ranges of code points.  A
character has the property if some range of the table holds it
(`inRanges_iff`).
-/

namespace FreshTag.Text

/-- Membership in a table of closed ranges. -/
def inRanges (ranges : List (Nat × Nat)) (c : Char) : Bool :=
  ranges.any fun (a, b) => a ≤ c.toNat && c.toNat ≤ b

theorem inRanges_iff {ranges : List (Nat × Nat)} {c : Char} :
    inRanges ranges c = true ↔ ∃ r ∈ ranges, r.1 ≤ c.toNat ∧ c.toNat ≤ r.2 := by
  simp [inRanges]

end FreshTag.Text
