/-!
# Sets of characters

A set of characters is kept as the first and the last code points of its ranges. The tables of
Unicode properties have this form.
-/

namespace MaterialViewer.Text

/-- Whether a character is in one of the ranges. -/
def inRanges (ranges : List (Nat × Nat)) (c : Char) : Bool :=
  ranges.any fun (first, last) => first ≤ c.toNat && c.toNat ≤ last

theorem inRanges_append (r s : List (Nat × Nat)) (c : Char) :
    inRanges (r ++ s) c = (inRanges r c || inRanges s c) := by
  simp [inRanges]

theorem inRanges_iff {ranges : List (Nat × Nat)} {c : Char} :
    inRanges ranges c = true ↔ ∃ r ∈ ranges, r.1 ≤ c.toNat ∧ c.toNat ≤ r.2 := by
  simp [inRanges]

end MaterialViewer.Text
