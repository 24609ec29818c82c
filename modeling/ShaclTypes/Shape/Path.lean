import ShaclTypes.Json.Reading
import ShaclTypes.Rdf.Term
set_option autoImplicit false

/-!
# Property paths

A path leads from a node to the values of a property: a single predicate, or an
inverse, a sequence, an alternative or a repetition of paths.  Only a predicate
path becomes a property of an object type; the other kinds are kept so that
they can be named when they are refused (`kindName`).
-/

namespace ShaclTypes

open ShaclTypes.Rdf ShaclTypes.Json

/-- A property path. -/
inductive Path where
  | predicate (iri : Iri)
  | inverse (path : Path)
  | sequence (steps : List Path)
  | alternative (paths : List Path)
  | zeroOrMore (path : Path)
  | oneOrMore (path : Path)
  | zeroOrOne (path : Path)
  deriving Repr, Inhabited

namespace Path

/-- The predicate, if the path is nothing but that. -/
def predicate? : Path → Option Iri
  | predicate i => some i
  | _ => none

/-- The name of the kind of path. -/
def kindName : Path → String
  | predicate _ => "predicate"
  | inverse _ => "inverse"
  | sequence _ => "sequence"
  | alternative _ => "alternative"
  | zeroOrMore _ => "zero-or-more"
  | oneOrMore _ => "one-or-more"
  | zeroOrOne _ => "zero-or-one"

@[simp] theorem predicate?_eq_some {p : Path} {i : Iri} :
    p.predicate? = some i ↔ p = predicate i := by
  cases p <;> simp [predicate?]

/-- The path in a document: an object whose single field names the kind. -/
def ofDocument? : Nat → Document → Option Path
  | _ + 1, .object [(some "Predicate", .string value)] => value.map fun iri => predicate ⟨iri⟩
  | room + 1, .object [(some "Inverse", path)] => (ofDocument? room path).map inverse
  | room + 2, .object [(some "Sequence", .array steps)] =>
    (steps.mapM (ofDocument? room)).map sequence
  | room + 2, .object [(some "Alternative", .array paths)] =>
    (paths.mapM (ofDocument? room)).map alternative
  | room + 1, .object [(some "ZeroOrMore", path)] => (ofDocument? room path).map zeroOrMore
  | room + 1, .object [(some "OneOrMore", path)] => (ofDocument? room path).map oneOrMore
  | room + 1, .object [(some "ZeroOrOne", path)] => (ofDocument? room path).map zeroOrOne
  | _, _ => none

/-- The path that a JSON text holds. -/
def ofJsonText? (text : String) : Option Path :=
  (Document.ofText? text).bind (ofDocument? nestingLimit)

end Path

end ShaclTypes
