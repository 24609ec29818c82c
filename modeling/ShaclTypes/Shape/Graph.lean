import ShaclTypes.Rdf.PrefixMap
import ShaclTypes.Shape.Basic
import ShaclTypes.Shape.ClassHierarchy
set_option autoImplicit false

/-!
# Shapes graphs

The shapes to resolve, which of them are declared node shapes, the hierarchy of
their classes, and the prefixes for their names.  A shape is looked up by its
identifier; if several have the same, the last of them is meant.

`ShapesGraph.Member` is a shape together with the fact that it belongs to the
graph: this is what bounds every walk through the shapes.
-/

namespace ShaclTypes

open ShaclTypes.Rdf

/-- A shapes graph. -/
structure ShapesGraph where
  shapes : List Shape
  /-- the identifiers of the declared node shapes, in the order of declaration -/
  declared : List Term
  hierarchy : ClassHierarchy
  prefixes : PrefixMap
  deriving Repr

namespace ShapesGraph

/-- A shape of the graph. -/
abbrev Member (g : ShapesGraph) : Type := { s : Shape // s ∈ g.shapes }

/-- The identifiers of all shapes. -/
def identifiers (g : ShapesGraph) : List Term := g.shapes.map Shape.identifier

theorem Member.mem_identifiers {g : ShapesGraph} (s : g.Member) :
    s.1.identifier ∈ g.identifiers :=
  List.mem_map.2 ⟨s.1, s.2, rfl⟩

/-! ## Looking up shapes -/

/-- The last shape with an identifier. -/
def member? (g : ShapesGraph) (identifier : Term) : Option g.Member :=
  g.shapes.attach.reverse.find? fun s => s.1.identifier == identifier

/-- The last shape with an identifier, or the complaint that there is none. -/
def require (g : ShapesGraph) (identifier : Term) : Except ShapeError g.Member :=
  match g.member? identifier with
  | some s => .ok s
  | none => .error (.unknownShape identifier)

/-- Whether a term is declared to be a node shape. -/
def isDeclared (g : ShapesGraph) (identifier : Term) : Bool := g.declared.contains identifier

/-- The shape of a declared node shape. -/
def nodeShape? (g : ShapesGraph) (identifier : Term) : Option g.Member :=
  if g.isDeclared identifier then g.member? identifier else none

/-- The declared node shapes that have a shape, in the order of declaration. -/
def nodeShapes (g : ShapesGraph) : List g.Member := g.declared.filterMap g.member?

/-- The property shapes of a node shape. -/
def propertyShapes (g : ShapesGraph) (s : Shape) : Except ShapeError (List g.Member) :=
  s.constraints.properties.mapM g.require

theorem identifier_of_member? {g : ShapesGraph} {t : Term} {s : g.Member}
    (h : g.member? t = some s) : s.1.identifier = t := by
  simpa using List.find?_some h

theorem member?_isSome {g : ShapesGraph} {t : Term} :
    (g.member? t).isSome = true ↔ t ∈ g.identifiers := by
  simp [member?, identifiers]

/-! ## Hierarchy -/

/-- The node shapes that are related to a shape through its class.  Only a shape
that is a class has any, and only shapes that are classes are among them. -/
def relatives (g : ShapesGraph) (kinship : Kinship) (s : Shape) : List g.Member :=
  if s.isClass then
    ((g.hierarchy.relatives kinship s.identifier).filterMap g.nodeShape?).filter (·.1.isClass)
  else []

/-- Whether a shape is a strict subclass of a class. -/
def isSubclassOf (g : ShapesGraph) (s : Shape) (cls : Term) : Bool :=
  g.hierarchy.isSubclassOf s.identifier cls

end ShapesGraph

end ShaclTypes
