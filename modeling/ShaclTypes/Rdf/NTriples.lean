import ShaclTypes.Rdf.Term
set_option autoImplicit false

/-!
# Terms in N-Triples form

The written form of a term, which identifies it in messages, in events and in
names of last resort.  The lexical form of a literal is escaped down to
printable ASCII: quotes and the backslash get a backslash, tab, line feed and
carriage return have letters, and every other character outside U+0020 to
U+007E is its code point in lower-case hexadecimal between braces.
-/

namespace ShaclTypes.Rdf

/-- The lower-case hexadecimal digits of a number, without leading zeros. -/
def hexDigits (n : Nat) : List Char := Nat.toDigits 16 n

/-- The escaped form of one character of a lexical form. -/
def escapeChar (c : Char) : List Char :=
  if c = '\t' then ['\\', 't']
  else if c = '\n' then ['\\', 'n']
  else if c = '\r' then ['\\', 'r']
  else if c = '"' ∨ c = '\'' ∨ c = '\\' then ['\\', c]
  else if 0x20 ≤ c.toNat ∧ c.toNat ≤ 0x7E then [c]
  else ['\\', 'u', '\x7b'] ++ hexDigits c.toNat ++ ['\x7d']

/-- A lexical form with every character escaped. -/
def escape (text : String) : String := String.ofList (text.toList.flatMap escapeChar)

theorem toList_escape (text : String) : (escape text).toList = text.toList.flatMap escapeChar := by
  simp [escape]

/-- A character that needs no escape stands for itself. -/
theorem escapeChar_eq_self {c : Char} (printable : 0x20 ≤ c.toNat ∧ c.toNat ≤ 0x7E)
    (plain : c ≠ '"' ∧ c ≠ '\'' ∧ c ≠ '\\') : escapeChar c = [c] := by
  have tab : c ≠ '\t' := by rintro rfl; exact absurd printable (by decide)
  have feed : c ≠ '\n' := by rintro rfl; exact absurd printable (by decide)
  have ret : c ≠ '\r' := by rintro rfl; exact absurd printable (by decide)
  simp [escapeChar, tab, feed, ret, plain, printable]

/-- A quoted lexical form, then the language if there is one and the datatype if not. -/
def Literal.ntriples (l : Literal) : String :=
  "\"" ++ escape l.lexical ++ "\"" ++
    match l.language with
    | some language => "@" ++ language
    | none => "^^<" ++ l.datatype.text ++ ">"

/-- IRIs stand in angle brackets, blank node labels after `_:`. -/
def Term.ntriples : Term → String
  | iri i => "<" ++ i.text ++ ">"
  | blank label => "_:" ++ label
  | literal l => l.ntriples

/-- A statement ends with a full stop. -/
def Triple.ntriples (t : Triple) : String :=
  t.subject.ntriples ++ " <" ++ t.predicate.text ++ "> " ++ t.object.ntriples ++ " ."

end ShaclTypes.Rdf
