import ShaclTypes.Json.Binary64
import ShaclTypes.Text.Digits
set_option autoImplicit false

/-!
# Numbers in JSON text

A number is kept as a significand and a power of ten; its sign plays no part in
what this library asks of a number.  The one question asked is whether the
number lies beyond the range of binary64 (`exceedsDouble`).

A significand stays below 2^64.  It takes the digits of the whole part as long
as they fit, and the digits that do not fit only count as powers of ten; then
it takes the digits of the fraction as long as they fit, and the others are
dropped.  If all of them fit, the number is kept exactly (`ofDigits_of_lt`).
-/

namespace ShaclTypes.Json

open ShaclTypes.Text

/-- The magnitude `significand * 10 ^ exponent`. -/
structure Number where
  significand : Nat
  exponent : Int
  deriving DecidableEq, Repr, Inhabited

namespace Number

/-! ## Digits -/

/-- The first number that is too large for a significand. -/
def significandLimit : Nat := UInt64.size

/-- Take digits into a significand until one does not fit: the significand, and
how many digits are left. -/
def takeDigits (significand : Nat) : List Char → Nat × Nat
  | [] => (significand, 0)
  | d :: rest =>
    if appendDigit significand d < significandLimit then
      takeDigits (appendDigit significand d) rest
    else (significand, rest.length + 1)

/-- The number with the given digits before and after the point, times a power of ten. -/
def ofDigits (whole fraction : List Char) (exponent : Int) : Number :=
  let (upper, counted) := takeDigits 0 whole
  let (significand, dropped) := takeDigits upper fraction
  ⟨significand, exponent + counted - (fraction.length - dropped)⟩

theorem takeDigits_lt {significand : Nat} (h : significand < significandLimit)
    (digits : List Char) : (takeDigits significand digits).1 < significandLimit := by
  induction digits generalizing significand with
  | nil => exact h
  | cons d rest ih =>
    unfold takeDigits
    split
    · next fits => exact ih fits
    · exact h

/-- Digits that fit all together are taken one and all. -/
theorem takeDigits_of_lt {significand : Nat} {digits : List Char}
    (h : digits.foldl appendDigit significand < significandLimit) :
    takeDigits significand digits = (digits.foldl appendDigit significand, 0) := by
  induction digits generalizing significand with
  | nil => rfl
  | cons d rest ih =>
    have fits : appendDigit significand d < significandLimit :=
      Nat.lt_of_le_of_lt (le_foldl_appendDigit _ rest) h
    simp only [takeDigits, fits, if_true]
    exact ih h

/-- A number whose digits fit into the significand is kept exactly. -/
theorem ofDigits_of_lt {whole fraction : List Char} (exponent : Int)
    (h : decimalValue (whole ++ fraction) < significandLimit) :
    ofDigits whole fraction exponent =
      ⟨decimalValue (whole ++ fraction), exponent - fraction.length⟩ := by
  simp only [decimalValue, List.foldl_append] at h ⊢
  have upper := takeDigits_of_lt (Nat.lt_of_le_of_lt (le_foldl_appendDigit _ fraction) h)
  simp [ofDigits, upper, takeDigits_of_lt h]

/-! ## Reading -/

/-- An exponent part: nothing, or `e`, an optional sign and at least one digit. -/
def exponentPart : List Char → Option Int
  | [] => some 0
  | e :: rest =>
    if e = 'e' ∨ e = 'E' then
      match rest with
      | '-' :: digits => (decimal? digits).map fun n => -(n : Int)
      | '+' :: digits => (decimal? digits).map fun n => (n : Int)
      | digits => (decimal? digits).map fun n => (n : Int)
    else none

/-- What follows the whole part: a fraction with at least one digit or none at
all, then the exponent part. -/
def afterWhole (whole : List Char) : List Char → Option Number
  | '.' :: rest =>
    let fraction := rest.takeWhile Char.isDigit
    if fraction.isEmpty then none
    else (exponentPart (rest.dropWhile Char.isDigit)).map (ofDigits whole fraction)
  | rest => (exponentPart rest).map (ofDigits whole [])

/-- A whole part has a digit, and begins with zero only if it is zero. -/
def wholePart (cs : List Char) : Option Number :=
  match cs.takeWhile Char.isDigit with
  | [] => none
  | '0' :: _ :: _ => none
  | whole => afterWhole whole (cs.dropWhile Char.isDigit)

/-- The number that all of the characters together write. -/
def ofChars? : List Char → Option Number
  | '-' :: rest => wholePart rest
  | cs => wholePart cs

/-! ## Range -/

/-- Whether the number is beyond the range of binary64.  Its significand and its
power of ten are rounded each, and so is their product.  A power of ten above
the 308th is beyond the range by itself. -/
def exceedsDouble (n : Number) : Bool :=
  if n.significand = 0 || n.exponent < 0 then false
  else if 308 < n.exponent then true
  else Binary64.limit ≤
    Binary64.round n.significand * Binary64.round (Nat.pow 10 n.exponent.toNat)

end Number

end ShaclTypes.Json
