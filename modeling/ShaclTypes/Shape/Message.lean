import ShaclTypes.Rdf.NTriples
import ShaclTypes.Shape.Basic
set_option autoImplicit false

/-!
# The wording of shape errors

Terms stand in messages in N-Triples form.
-/

namespace ShaclTypes

/-- The wording of the error. -/
def ShapeError.message : ShapeError → String
  | malformedList head => "Malformed RDF list starting at " ++ head.ntriples
  | malformedPath node => "Malformed property path " ++ node.ntriples
  | invalidValue shape predicate value =>
    "Invalid value " ++ value.ntriples ++ " for <" ++ predicate.text ++ "> on shape " ++
      shape.ntriples
  | unknownShape identifier => "Unknown shape: " ++ identifier.ntriples

end ShaclTypes
