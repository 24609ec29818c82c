import ShaclTypes.Rdf.Term
set_option autoImplicit false

/-!
# Node kinds

A value is a blank node, an IRI or a literal.  A set of node kinds says which
of them are allowed; it is listed in that order.  Membership in a union is
membership in either part (`mem_union`), and a set is told by its members
(`ext_mem`).
-/

namespace ShaclTypes

open ShaclTypes.Rdf

/-- The kinds of values. -/
inductive NodeKind where
  | blankNode
  | iri
  | literal
  deriving DecidableEq, Repr, Inhabited

/-- The kind of a term. -/
def NodeKind.ofTerm : Term → NodeKind
  | .blank _ => .blankNode
  | .iri _ => .iri
  | .literal _ => .literal

/-- The name of the kind. -/
def NodeKind.name : NodeKind → String
  | blankNode => "BlankNode"
  | iri => "Iri"
  | literal => "Literal"

/-- A set of node kinds. -/
structure NodeKinds where
  blankNode : Bool := false
  iri : Bool := false
  literal : Bool := false
  deriving DecidableEq, Repr, Inhabited

namespace NodeKinds

/-- No kind at all. -/
def empty : NodeKinds := {}

/-- The kinds that can identify a resource. -/
def identifiers : NodeKinds := { blankNode := true, iri := true }

/-- Whether a kind is in the set. -/
def contains (s : NodeKinds) : NodeKind → Bool
  | .blankNode => s.blankNode
  | .iri => s.iri
  | .literal => s.literal

instance : Membership NodeKind NodeKinds := ⟨fun s k => s.contains k = true⟩

instance (s : NodeKinds) (k : NodeKind) : Decidable (k ∈ s) :=
  inferInstanceAs (Decidable (s.contains k = true))

/-- The kinds in either set. -/
def union (a b : NodeKinds) : NodeKinds :=
  ⟨a.blankNode || b.blankNode, a.iri || b.iri, a.literal || b.literal⟩

/-- The set of one kind. -/
def single : NodeKind → NodeKinds
  | .blankNode => { blankNode := true }
  | .iri => { iri := true }
  | .literal => { literal := true }

/-- The union of a list of sets. -/
def unions (sets : List NodeKinds) : NodeKinds := sets.foldr union empty

/-- The set of the listed kinds. -/
def ofList (kinds : List NodeKind) : NodeKinds := unions (kinds.map single)

/-- The kinds in the set, in their order. -/
def toList (s : NodeKinds) : List NodeKind :=
  [NodeKind.blankNode, .iri, .literal].filter (· ∈ s)

/-- The number of kinds in the set. -/
def size (s : NodeKinds) : Nat := s.toList.length

/-- Whether no kind is in the set. -/
def isEmpty (s : NodeKinds) : Bool := s == empty

@[simp] theorem mem_union {a b : NodeKinds} {k : NodeKind} : k ∈ a.union b ↔ k ∈ a ∨ k ∈ b := by
  cases k <;> simp [Membership.mem, contains, union]

@[simp] theorem not_mem_empty (k : NodeKind) : k ∉ empty := by
  cases k <;> simp [Membership.mem, contains, empty]

@[simp] theorem mem_single {k l : NodeKind} : k ∈ single l ↔ k = l := by
  cases k <;> cases l <;> decide

theorem mem_unions {sets : List NodeKinds} {k : NodeKind} :
    k ∈ unions sets ↔ ∃ s ∈ sets, k ∈ s := by
  induction sets with
  | nil => simp [unions]
  | cons s rest ih => simp [unions] at ih ⊢; rw [ih]

theorem mem_toList {s : NodeKinds} {k : NodeKind} : k ∈ s.toList ↔ k ∈ s := by
  cases k <;> simp [toList]

/-- Sets with the same members are equal. -/
theorem ext_mem {a b : NodeKinds} (h : ∀ k, k ∈ a ↔ k ∈ b) : a = b := by
  have hb := h .blankNode
  have hi := h .iri
  have hl := h .literal
  simp only [Membership.mem, contains, Bool.coe_iff_coe] at hb hi hl
  cases a
  cases b
  simp_all

theorem isEmpty_eq_true {s : NodeKinds} : s.isEmpty = true ↔ ∀ k, k ∉ s := by
  constructor
  · intro h k
    have : s = empty := by simpa [isEmpty] using h
    exact this ▸ not_mem_empty k
  · intro h
    have : s = empty := ext_mem fun k => by simp [h k]
    simp [isEmpty, this]

end NodeKinds

end ShaclTypes
