import ShaclTypes.Naming.Settings
set_option autoImplicit false

/-!
# Sanitized identifiers

Any text becomes an identifier of ASCII letters, digits and underscores.  A
character of another kind is replaced by its code point between underscores, a
leading digit and the empty text get an underscore in front, and a reserved
identifier is set apart by the prefix and suffix of the settings, unescaped.
-/

namespace ShaclTypes

/-- Whether a character can stand in an identifier. -/
def isIdentifierChar (c : Char) : Bool := c.isAlphanum || c == '_'

/-- A character as it stands in an identifier. -/
def sanitizeChar (c : Char) : List Char :=
  if isIdentifierChar c then [c] else '_' :: (Nat.toDigits 10 c.toNat ++ ['_'])

/-- What is put in front so that an identifier does not begin with a digit and is not empty. -/
def identifierLead : List Char → List Char
  | [] => ['_']
  | c :: _ => if c.isDigit then ['_'] else []

/-- A text that is not reserved as an identifier. -/
def escapeIdentifier (cs : List Char) : List Char :=
  identifierLead cs ++ cs.flatMap sanitizeChar

/-- Identifiers that do not begin with a digit are left as they are. -/
theorem escapeIdentifier_eq_self {c : Char} {rest : List Char} (start : c.isDigit = false)
    (all : ∀ d ∈ c :: rest, isIdentifierChar d = true) :
    escapeIdentifier (c :: rest) = c :: rest := by
  have : ∀ ds : List Char, (∀ d ∈ ds, isIdentifierChar d = true) → ds.flatMap sanitizeChar = ds := by
    intro ds
    induction ds with
    | nil => simp
    | cons d ds ih =>
      intro h
      simp [sanitizeChar, h d List.mem_cons_self, ih fun x hx => h x (List.mem_cons_of_mem d hx)]
  simp [escapeIdentifier, identifierLead, start, this _ all]

/-- The identifier for a text. -/
def Settings.sanitize (s : Settings) (candidate : String) : String :=
  if s.isReserved candidate then s.reservedPrefix ++ candidate ++ s.reservedSuffix
  else String.ofList (escapeIdentifier candidate.toList)

end ShaclTypes
