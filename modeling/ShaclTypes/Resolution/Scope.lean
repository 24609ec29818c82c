import ShaclTypes.Model.Basic
import ShaclTypes.Shape.Graph
set_option autoImplicit false

/-!
# The scope of a resolution

Beside the state of a resolution stands a scope: the node shapes that are being
resolved around the present one, each with the place that is kept for it in the
model, and the inline shapes that are being typed within the innermost of them.

A scope bounds what can still be entered: opening a node shape or walking into
an inline shape makes its `Scope.nodeMeasure` or `Scope.typeMeasure` smaller,
and this is why resolution ends on every graph, cyclic or not.
-/

namespace ShaclTypes

open ShaclTypes.Rdf

/-- What is being resolved around the present step. -/
structure Scope where
  /-- the node shapes under resolution, the innermost first, and their places -/
  places : List (Term × NodeType) := []
  /-- the inline shapes being typed within the innermost node shape -/
  trail : List Term := []
  deriving Repr, Inhabited

namespace Scope

/-- The scope outside every resolution. -/
def outermost : Scope := {}

/-- The place kept for a node shape. -/
def place? (s : Scope) (identifier : Term) : Option NodeType := s.places.lookup identifier

/-- The scope inside a node shape for which a place is kept.  Inline shapes may
be shared between node shapes, so the trail starts anew. -/
def enter (s : Scope) (identifier : Term) (place : NodeType) : Scope :=
  { places := (identifier, place) :: s.places, trail := [] }

/-- The scope inside an inline shape. -/
def walk (s : Scope) (identifier : Term) : Scope := { s with trail := identifier :: s.trail }

/-- The node shapes under resolution. -/
def underway (s : Scope) : List Term := s.places.map Prod.fst

/-- A bound on the node shapes and inline shapes that can still be entered. -/
def nodeMeasure (g : ShapesGraph) (s : Scope) : Nat :=
  remaining g.identifiers s.underway * (g.identifiers.length + 2)

/-- A bound on what can still be entered while a value type is built. -/
def typeMeasure (g : ShapesGraph) (s : Scope) : Nat :=
  s.nodeMeasure g + 1 + remaining g.identifiers s.trail

theorem mem_underway {s : Scope} {identifier : Term} :
    identifier ∈ s.underway ↔ (s.place? identifier).isSome = true := by
  simp only [underway, place?]
  induction s.places with
  | nil => simp
  | cons p rest ih =>
    obtain ⟨t, place⟩ := p
    by_cases h : identifier = t
    · simp [h]
    · have : (identifier == t) = false := by simp [h]
      simp [List.lookup_cons, this, h, ih]

theorem typeMeasure_enter_lt {g : ShapesGraph} {s : Scope} {shape : g.Member}
    (unknown : s.place? shape.1.identifier = none) (place : NodeType) :
    (s.enter shape.1.identifier place).typeMeasure g < s.nodeMeasure g := by
  have fresh : shape.1.identifier ∉ s.underway := by simp [mem_underway, unknown]
  have lt : remaining g.identifiers (s.enter shape.1.identifier place).underway
      < remaining g.identifiers s.underway :=
    remaining_lt (List.subset_cons_self _ _) shape.mem_identifiers fresh List.mem_cons_self
  have le := remaining_le_length g.identifiers (s.enter shape.1.identifier place).trail
  have mul := Nat.mul_le_mul_right (g.identifiers.length + 2) (Nat.succ_le_of_lt lt)
  rw [Nat.succ_mul] at mul
  simp only [typeMeasure, nodeMeasure]
  omega

theorem nodeMeasure_lt_typeMeasure (g : ShapesGraph) (s : Scope) :
    s.nodeMeasure g < s.typeMeasure g := by
  simp only [typeMeasure]
  omega

theorem nodeMeasure_enter_lt {g : ShapesGraph} {s : Scope} {shape : g.Member}
    (unknown : s.place? shape.1.identifier = none) (place : NodeType) :
    (s.enter shape.1.identifier place).nodeMeasure g < s.nodeMeasure g :=
  Nat.lt_trans (nodeMeasure_lt_typeMeasure g _) (typeMeasure_enter_lt unknown place)

@[simp] theorem nodeMeasure_walk (g : ShapesGraph) (s : Scope) (identifier : Term) :
    (s.walk identifier).nodeMeasure g = s.nodeMeasure g := rfl

theorem typeMeasure_walk_lt {g : ShapesGraph} {s : Scope} {shape : g.Member}
    (fresh : shape.1.identifier ∉ s.trail) :
    (s.walk shape.1.identifier).typeMeasure g < s.typeMeasure g := by
  have lt : remaining g.identifiers (shape.1.identifier :: s.trail)
      < remaining g.identifiers s.trail :=
    remaining_lt (List.subset_cons_self _ _) shape.mem_identifiers fresh List.mem_cons_self
  simp only [typeMeasure, nodeMeasure_walk]
  simp only [walk]
  omega

end Scope

end ShaclTypes
