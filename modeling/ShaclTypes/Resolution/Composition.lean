import ShaclTypes.Model.ValueType
import ShaclTypes.Shape.Basic
import ShaclTypes.Vocabulary
set_option autoImplicit false

/-!
# What a shape is composed of

A node shape with `sh:and` or `sh:or` is a composite of object types, and the
conjunction comes first.  A value is composed of the first that its shape has
of a conjunction, informative classes, nodes and a disjunction.
-/

namespace ShaclTypes

open ShaclTypes.Rdf ShaclTypes.Vocabulary

/-- The composition of a value: where it comes from, and the shapes or classes it lists. -/
inductive Composition where
  | conjunction (members : List Term)
  | classes (classes : List Iri)
  | nodes (nodes : List Term)
  | disjunction (members : List Term)
  deriving DecidableEq, Repr

/-- Values meet all that is listed, except that a disjunction asks for one. -/
def Composition.kind : Composition → CompositeKind
  | conjunction _ | classes _ | nodes _ => .intersection
  | disjunction _ => .union

namespace Constraints

/-- The classes that carry type information. -/
def informativeClasses (c : Constraints) : List Iri := c.classes.filter fun i => !isNonInformative i

/-- The composition of a value, if there is one. -/
def composition? (c : Constraints) : Option Composition :=
  if !c.allOf.isEmpty then some (.conjunction c.allOf)
  else if !c.informativeClasses.isEmpty then some (.classes c.informativeClasses)
  else if !c.nodes.isEmpty then some (.nodes c.nodes)
  else if !c.anyOf.isEmpty then some (.disjunction c.anyOf)
  else none

/-- The composition of a node shape, if it is a composite of object types. -/
def nodeComposition? (c : Constraints) : Option (CompositeKind × List Term) :=
  if !c.allOf.isEmpty then some (.intersection, c.allOf)
  else if !c.anyOf.isEmpty then some (.union, c.anyOf)
  else none

theorem nodeComposition?_ne_nil {c : Constraints} {kind : CompositeKind} {members : List Term}
    (h : c.nodeComposition? = some (kind, members)) : members ≠ [] := by
  unfold nodeComposition? at h
  split at h
  · next ne =>
    obtain ⟨rfl, rfl⟩ := Prod.mk.inj (Option.some.inj h)
    simpa using ne
  · split at h
    · next ne =>
      obtain ⟨rfl, rfl⟩ := Prod.mk.inj (Option.some.inj h)
      simpa using ne
    · cases h

end Constraints

end ShaclTypes
