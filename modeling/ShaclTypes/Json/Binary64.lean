set_option autoImplicit false

/-!
# Magnitudes in binary64

A natural number in binary64 has 53 significant bits.  A longer one is rounded
to the nearest that has no more, and of two that are equally near to the one
whose last significant bit is zero (`roundedQuotient_near`,
`roundedQuotient_even`); a shorter one stays as it is (`round_eq_self`).
-/

namespace ShaclTypes.Json.Binary64

/-- How many units a number comes to, rounded to nearest, a tie to the even count. -/
def roundedQuotient (n unit : Nat) : Nat :=
  let count := n / unit
  let rest := n % unit
  if unit < 2 * rest || (2 * rest == unit && count % 2 == 1) then count + 1 else count

/-- The value of the last significant bit of a number. -/
def lastBit (n : Nat) : Nat := 1 <<< (n.log2 - 52)

/-- The number with 53 significant bits. -/
def round (n : Nat) : Nat := roundedQuotient n (lastBit n) * lastBit n

/-- The least number that is rounded to none in the range of binary64: it lies
half a unit above the greatest number in the range. -/
def limit : Nat := Nat.pow 2 1024 - Nat.pow 2 970

/-- The rounded multiple is at most half a unit away. -/
theorem roundedQuotient_near (n : Nat) {unit : Nat} (h : 0 < unit) :
    2 * (roundedQuotient n unit * unit) ≤ 2 * n + unit ∧
      2 * n ≤ 2 * (roundedQuotient n unit * unit) + unit := by
  have split := Nat.div_add_mod n unit
  have small := Nat.mod_lt n h
  have next : (n / unit + 1) * unit = unit * (n / unit) + unit := by
    rw [Nat.add_mul, Nat.one_mul, Nat.mul_comm]
  have same : n / unit * unit = unit * (n / unit) := Nat.mul_comm _ _
  unfold roundedQuotient
  simp only [Bool.or_eq_true, decide_eq_true_eq, Bool.and_eq_true, beq_iff_eq]
  split
  · rw [next]; omega
  · rw [same]; omega

/-- Half a unit goes to the even count. -/
theorem roundedQuotient_even {n unit : Nat} (half : 2 * (n % unit) = unit) :
    roundedQuotient n unit % 2 = 0 := by
  unfold roundedQuotient
  simp only [half, Nat.lt_irrefl, decide_false, BEq.rfl, Bool.true_and, Bool.false_or, beq_iff_eq]
  split <;> omega

/-- A number of at most 53 bits is in binary64 already. -/
theorem round_eq_self {n : Nat} (h : n.log2 ≤ 52) : round n = n := by
  have bit : lastBit n = 1 := by simp [lastBit, Nat.sub_eq_zero_of_le h]
  simp [round, bit, roundedQuotient, Nat.mod_one]

end ShaclTypes.Json.Binary64
