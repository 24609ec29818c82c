import ShaclTypes.Text.Extender
import ShaclTypes.Text.Unassigned
set_option autoImplicit false

/-!
# Characters that do not show by themselves

Controls, format characters and separators other than the space, characters
that extend the one before them unless they are letters (`isSoundMark`), and
code points that stand for no character.
In ASCII all that comes before the space is hidden (`isHidden_of_lt`), and
nothing from the space to the tilde is (`isHidden_eq_false`).
-/

namespace ShaclTypes.Text

/-- The ranges of controls, format characters and separators other than the
space, as of Unicode 17. -/
def controlRanges : Ranges :=
  [(0x0000, 0x001F), (0x007F, 0x00A0), (0x00AD, 0x00AD), (0x0600, 0x0605), (0x061C, 0x061C),
   (0x06DD, 0x06DD), (0x070F, 0x070F), (0x0890, 0x0891), (0x08E2, 0x08E2), (0x1680, 0x1680),
   (0x180E, 0x180E), (0x2000, 0x200F), (0x2028, 0x202F), (0x205F, 0x2064), (0x2066, 0x206F),
   (0x3000, 0x3000), (0xFEFF, 0xFEFF), (0xFFF9, 0xFFFB), (0x110BD, 0x110BD), (0x110CD, 0x110CD),
   (0x13430, 0x1343F), (0x1BCA0, 0x1BCA3), (0x1D173, 0x1D17A), (0xE0001, 0xE0001),
   (0xE0020, 0xE007F)]

/-- Whether a character is a control, a format character or a separator. -/
def isControl (c : Char) : Bool := controlRanges.contains c.toNat

/-- The only letters that extend the one before them: the two halfwidth sound
marks, which are as wide as other letters and show by themselves. -/
def isSoundMark (c : Char) : Bool := c.toNat == 0xFF9E || c.toNat == 0xFF9F

/-- Whether a character does not show by itself. -/
def isHidden (c : Char) : Bool :=
  isControl c || (isExtender c && !isSoundMark c) || isUnassigned c

/-- Everything in ASCII before the space is hidden. -/
theorem isHidden_of_lt {c : Char} (h : c.toNat < 0x20) : isHidden c = true := by
  have control : isControl c = true :=
    Ranges.contains_eq_true.2 ⟨(0x0000, 0x001F), by decide, by simp, by simp; omega⟩
  simp [isHidden, control]

/-- The characters from the space to the tilde show by themselves. -/
theorem isHidden_eq_false {c : Char} (low : 0x20 ≤ c.toNat) (high : c.toNat < 0x7F) :
    isHidden c = false := by
  have control : isControl c = false :=
    Ranges.contains_eq_false_of_avoids (by decide +kernel) low high
  have extender : isExtender c = false :=
    Ranges.contains_eq_false_of_avoids (by decide +kernel) low high
  have unassigned : isUnassigned c = false :=
    Ranges.contains_eq_false_of_avoids (by decide +kernel) low high
  simp [isHidden, control, extender, unassigned]

end ShaclTypes.Text
