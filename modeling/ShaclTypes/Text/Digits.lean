set_option autoImplicit false

/-!
# Decimal digits

Reading a number from ASCII digits (`decimal?_eq_some`).
-/

namespace ShaclTypes.Text

/-- The number with one more decimal digit at its end. -/
def appendDigit (n : Nat) (digit : Char) : Nat := 10 * n + (digit.toNat - '0'.toNat)

/-- The value of decimal digits, most significant first. -/
def decimalValue (digits : List Char) : Nat := digits.foldl appendDigit 0

/-- More digits do not make a number smaller. -/
theorem le_foldl_appendDigit (n : Nat) (digits : List Char) : n ≤ digits.foldl appendDigit n := by
  induction digits generalizing n with
  | nil => exact Nat.le_refl n
  | cons d rest ih =>
    have step : n ≤ appendDigit n d := by unfold appendDigit; omega
    exact Nat.le_trans step (ih _)

@[simp] theorem decimalValue_nil : decimalValue [] = 0 := rfl

/-- The number that a non-empty run of digits writes. -/
def decimal? (cs : List Char) : Option Nat :=
  if !cs.isEmpty && cs.all Char.isDigit then some (decimalValue cs) else none

theorem decimal?_eq_some {cs : List Char} {n : Nat} :
    decimal? cs = some n ↔ cs ≠ [] ∧ (∀ c ∈ cs, c.isDigit = true) ∧ decimalValue cs = n := by
  unfold decimal?
  split
  · next h => simp_all
  · next h =>
    simp only [reduceCtorEq, false_iff]
    rintro ⟨nonempty, all, _⟩
    apply h
    simp only [Bool.and_eq_true, Bool.not_eq_true', List.isEmpty_eq_false_iff, List.all_eq_true]
    exact ⟨nonempty, all⟩

end ShaclTypes.Text
