set_option autoImplicit false

/-!
# Ranges of code points

A property of characters is a table of closed ranges of code points.
`Ranges.contains_eq_true` says what it means for a code point to be in a table.
-/

namespace ShaclTypes.Text

/-- Closed ranges of code points, as pairs of the first and the last. -/
abbrev Ranges := List (Nat × Nat)

namespace Ranges

/-- Whether a code point is in one of the ranges. -/
def contains (ranges : Ranges) (codePoint : Nat) : Bool :=
  ranges.any fun r => r.1 ≤ codePoint && codePoint ≤ r.2

/-- Whether no range has a code point from `first` on and before `stop`. -/
def avoids (ranges : Ranges) (first stop : Nat) : Bool :=
  ranges.all fun r => r.2 < first || stop ≤ r.1

theorem contains_eq_true {ranges : Ranges} {codePoint : Nat} :
    ranges.contains codePoint = true ↔ ∃ r ∈ ranges, r.1 ≤ codePoint ∧ codePoint ≤ r.2 := by
  simp [contains]

theorem contains_eq_false_of_avoids {ranges : Ranges} {first stop codePoint : Nat}
    (avoids : ranges.avoids first stop = true) (low : first ≤ codePoint)
    (high : codePoint < stop) : ranges.contains codePoint = false := by
  rw [Bool.eq_false_iff, ne_eq, contains_eq_true]
  rintro ⟨r, mem, lower, upper⟩
  have apart := List.all_eq_true.1 avoids r mem
  simp only [Bool.or_eq_true, decide_eq_true_eq] at apart
  omega

end Ranges

end ShaclTypes.Text
