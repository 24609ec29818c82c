import ShaclTypes.Rdf.Term
import ShaclTypes.Text.Blank
import ShaclTypes.Text.Digits
import ShaclTypes.Vocabulary
set_option autoImplicit false

/-!
# Literals and the values they stand for

Constructors for the literals that programs write, and the reading of counts
and truth values.  Both readings go by the lexical form alone, whatever the
datatype, and ignore blank characters around it.
-/

namespace ShaclTypes.Rdf

open ShaclTypes.Text ShaclTypes.Vocabulary

namespace Literal

/-! ## Writing -/

/-- Plain text. -/
def string (lexical : String) : Literal := ⟨lexical, xsd.string, none⟩

/-- Text in a language. -/
def tagged (lexical language : String) : Literal := ⟨lexical, rdf.langString, some language⟩

/-- An integer in decimal digits. -/
def integer (value : Int) : Literal := ⟨toString value, xsd.integer, none⟩

/-- A truth value, spelled out. -/
def boolean (value : Bool) : Literal := ⟨if value then "true" else "false", xsd.boolean, none⟩

end Literal

/-! ## Reading -/

/-- The first number that is too large for a count. -/
def countLimit : Nat := UInt64.size

/-- A count: digits after at most one plus sign, below the limit. -/
def parseCount (cs : List Char) : Option Nat :=
  (decimal? (match cs with | '+' :: rest => rest | _ => cs)).filter (· < countLimit)

theorem parseCount_lt {cs : List Char} {n : Nat} (h : parseCount cs = some n) : n < countLimit := by
  simpa using (Option.filter_eq_some_iff.1 h).2

/-- A truth value: spelled out, or as one digit. -/
def parseBool (cs : List Char) : Option Bool :=
  if cs = "true".toList ∨ cs = "1".toList then some true
  else if cs = "false".toList ∨ cs = "0".toList then some false
  else none

namespace Literal

/-- The count that the lexical form writes. -/
def count? (l : Literal) : Option Nat := parseCount (trim l.lexical.toList)

/-- The truth value that the lexical form writes. -/
def bool? (l : Literal) : Option Bool := parseBool (trim l.lexical.toList)

theorem count?_lt {l : Literal} {n : Nat} (h : l.count? = some n) : n < countLimit :=
  parseCount_lt h

theorem bool?_boolean (b : Bool) : (boolean b).bool? = some b := by
  cases b <;> decide

end Literal

end ShaclTypes.Rdf
