import ShaclTypes.Text.Hidden
set_option autoImplicit false

/-!
# Quoted texts

A list of texts as it stands in a message: each text in double quotes, between
square brackets.  A quote and a backslash get a backslash, the common control
characters have letters, and a character that would not show by itself is
written as its code point in hexadecimal.  All other characters stand for
themselves, whatever their script.
-/

namespace ShaclTypes.Text

/-- One character between quotes. -/
def quoteChar (c : Char) : List Char :=
  if c = '"' ∨ c = '\\' then ['\\', c]
  else if c = '\t' then ['\\', 't']
  else if c = '\n' then ['\\', 'n']
  else if c = '\r' then ['\\', 'r']
  else if c = '\x00' then ['\\', '0']
  else if isHidden c then ['\\', 'u', '\x7b'] ++ Nat.toDigits 16 c.toNat ++ ['\x7d']
  else [c]

/-- A text in double quotes. -/
def quoted (text : String) : String :=
  "\"" ++ String.ofList (text.toList.flatMap quoteChar) ++ "\""

/-- A list of quoted texts in square brackets. -/
def quotedList (texts : List String) : String :=
  "[" ++ String.intercalate ", " (texts.map quoted) ++ "]"

end ShaclTypes.Text
