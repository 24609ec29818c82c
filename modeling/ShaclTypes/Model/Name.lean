import ShaclTypes.Rdf.Term
set_option autoImplicit false

/-!
# Names

A name is the identifier that a backend emits, together with every hint that
was at hand when it was chosen, so that a backend can tell where it came from.
-/

namespace ShaclTypes

open ShaclTypes.Rdf

/-- The naming hints in a predicate path. -/
structure PathName where
  iri : Iri
  curie : Option String
  deriving DecidableEq, Repr, Inhabited

/-- The name of an entry of the model. -/
structure Name where
  /-- the shape that the entry comes from -/
  identifier : Term
  curie : Option String := none
  label : Option String := none
  /-- the name that replaces every other -/
  explicit : Option String := none
  path : Option PathName := none
  /-- the name that is emitted -/
  sanitized : String
  deriving DecidableEq, Repr, Inhabited

end ShaclTypes
