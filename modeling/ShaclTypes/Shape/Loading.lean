import ShaclTypes.Shape.Graph
import ShaclTypes.Shape.Reading
set_option autoImplicit false

/-!
# Loading shapes graphs

Two passes over the statements.  The first finds the terms that are shapes: by
declaration, by having a path or a property, or by being referred to as one.
The second reads each of them, in the order in which they were found.  A term
with a path is a property shape, even where it is also declared a node shape.
-/

namespace ShaclTypes

open ShaclTypes.Rdf ShaclTypes.Vocabulary ShaclTypes.Values

/-! ## Finding shapes -/

/-- The shapes that a statement shows, in order, and the node shape that it declares. -/
structure Sighting where
  shapes : List Term := []
  nodeShapes : List Term := []
  deriving DecidableEq, Repr

/-- What one statement shows. -/
def Sighting.ofTriple (s : TripleStore) (t : Triple) : Read Sighting :=
  if t.predicate = rdf.type then
    if t.object.isIri sh.nodeShape then .ok { shapes := [t.subject], nodeShapes := [t.subject] }
    else if t.object.isIri sh.propertyShape then .ok { shapes := [t.subject] }
    else .ok {}
  else if t.predicate = sh.path then .ok { shapes := [t.subject] }
  else if t.predicate = sh.property then
    .ok { shapes := [t.subject, t.object], nodeShapes := [t.subject] }
  else if t.predicate = sh.node then .ok { shapes := [t.object] }
  else if t.predicate = sh.conjunction ∨ t.predicate = sh.disjunction ∨
      t.predicate = sh.exclusiveDisjunction then do
    return { shapes := ← items s t.object }
  else .ok {}

/-! ## Loading -/

namespace ShapesGraph

/-- The shapes graph of a store. -/
def ofStore (s : TripleStore) (prefixes : PrefixMap) : Except ShapeError ShapesGraph := do
  let sightings ← s.toList.mapM (Sighting.ofTriple s)
  let shapes ← (addAll [] (sightings.flatMap Sighting.shapes)).mapM (Shape.ofStore s)
  let candidates := addAll [] (sightings.flatMap Sighting.nodeShapes)
  return {
    shapes
    declared := candidates.filter fun t => (s.object? t sh.path).isNone
    hierarchy := .ofStore s
    prefixes }

/-- The shapes graph of a list of statements. -/
def ofTriples (triples : List Triple) (prefixes : PrefixMap) : Except ShapeError ShapesGraph :=
  ofStore (.ofList triples) prefixes

end ShapesGraph

end ShaclTypes
