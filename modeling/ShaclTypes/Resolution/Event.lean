import ShaclTypes.Json.Basic
import ShaclTypes.Resolution.Error
set_option autoImplicit false

/-!
# What a resolution reports

Events tell, in the order in which things happen, which shapes are resolved,
what is dropped on the way and why, and what the outcome is.  Nothing that
fails later takes an event back.
-/

namespace ShaclTypes

open ShaclTypes.Rdf

/-- An event of a resolution. -/
inductive Event where
  /-- a node shape is known already -/
  | known (shape : Term)
  /-- a node shape is resolved for the first time -/
  | resolving (shape : Term)
  /-- a member of a node-level composite is no shape -/
  | memberUnknown (shape member : Term)
  /-- a member of a node-level composite is not an object type -/
  | memberSkipped (shape member : Term)
  /-- a member of a node-level composite cannot be resolved -/
  | memberFailed (shape member : Term) (error : ResolutionError)
  /-- a property cannot be resolved and is left out -/
  | propertyDropped (objectType propertyShape : Term) (error : ResolutionError)
  /-- a class is no node shape and is left out -/
  | classUnknown (shape : Term) (cls : Iri)
  /-- a class cannot be resolved and is left out -/
  | classFailed (shape : Term) (cls : Iri) (error : ResolutionError)
  /-- an object type is a list cell -/
  | listDetected (shape : Term)
  /-- a whole graph has been resolved -/
  | finished (objects intersections unions : Nat)
  deriving DecidableEq, Repr

namespace Event

/-- How much an event matters. -/
inductive Level where
  | debug
  | info
  | warn
  deriving DecidableEq, Repr

/-- The name of the level. -/
def Level.name : Level → String
  | debug => "DEBUG"
  | info => "INFO"
  | warn => "WARN"

/-- Whatever is left out is a warning; the outcome is worth knowing. -/
def level : Event → Level
  | known _ | resolving _ | memberSkipped _ _ | listDetected _ => .debug
  | memberUnknown _ _ | memberFailed _ _ _ | propertyDropped _ _ _ | classUnknown _ _
  | classFailed _ _ _ => .warn
  | finished _ _ _ => .info

/-- The wording of the event. -/
def message : Event → String
  | known _ => "Node shape cache hit"
  | resolving _ => "Resolving node shape"
  | memberUnknown _ _ => "Composite member is not a shape"
  | memberSkipped _ _ => "Skipping composite member"
  | memberFailed _ _ _ => "Composite member failed to resolve"
  | propertyDropped _ _ _ => "Dropping property"
  | classUnknown _ _ => "Dropping class without a node shape"
  | classFailed _ _ _ => "Dropping unresolved class"
  | listDetected _ => "Detected RDF list object type"
  | finished _ _ _ => "Transformed shapes graph"

/-- What the event is about, field by field. -/
def fields : Event → List (String × Json)
  | known shape | resolving shape | listDetected shape => [("shape", .text shape.ntriples)]
  | memberUnknown shape member | memberSkipped shape member =>
    [("shape", .text shape.ntriples), ("member", .text member.ntriples)]
  | memberFailed shape member error =>
    [("shape", .text shape.ntriples), ("member", .text member.ntriples),
     ("error", .text error.message)]
  | propertyDropped objectType propertyShape error =>
    [("object_type", .text objectType.ntriples), ("property_shape", .text propertyShape.ntriples),
     ("error", .text error.message)]
  | classUnknown shape cls => [("shape", .text shape.ntriples), ("class", .text cls.text)]
  | classFailed shape cls error =>
    [("shape", .text shape.ntriples), ("class", .text cls.text), ("error", .text error.message)]
  | finished objects intersections unions =>
    [("object_types", .count objects), ("object_intersection_types", .count intersections),
     ("object_union_types", .count unions)]

/-- The event as a JSON object. -/
def toJson (e : Event) : Json :=
  .object ([("level", .text e.level.name), ("message", .text e.message)] ++ e.fields)

end Event

end ShaclTypes
