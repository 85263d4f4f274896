/-!
# Sets of characters given by ranges

Properties of the Unicode character database are tables: ascending ranges of code points. This
module says what it means for a character to lie in such a table.
-/

namespace Propositional.Text

/-- A set of code points as a list of ranges; both ends of a range belong to it. -/
abbrev Ranges : Type := List (Nat × Nat)

/-- Whether the code point of a character lies in one of the ranges. -/
def Ranges.contains (ranges : Ranges) (c : Char) : Bool :=
  ranges.any fun r => decide (r.1 ≤ c.toNat) && decide (c.toNat ≤ r.2)

/-- A character is in the set exactly when some range holds its code point. -/
theorem Ranges.contains_iff {ranges : Ranges} {c : Char} :
    ranges.contains c = true ↔ ∃ r ∈ ranges, r.1 ≤ c.toNat ∧ c.toNat ≤ r.2 := by
  simp [Ranges.contains]

end Propositional.Text
