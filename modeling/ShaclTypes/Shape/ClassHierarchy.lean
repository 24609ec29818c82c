import ShaclTypes.Rdf.TripleStore
import ShaclTypes.Vocabulary
set_option autoImplicit false

/-!
# Class hierarchy

The direct superclasses and subclasses of each class, in the order in which
they were asserted, and their transitive closures.  A closure is computed round
by round: each round adds the classes that are one step further away, so the
nearer come first, and the search stops when a round adds nothing.  The class
itself is never in its closure, however the hierarchy is closed upon itself.
-/

namespace ShaclTypes

open ShaclTypes.Rdf ShaclTypes.Vocabulary

/-! ## Adjacency -/

/-- The neighbours of each term, each once, in the order in which they were added. -/
abbrev Adjacency := Std.TreeMap Term (List Term)

namespace Adjacency

/-- The neighbours of a term. -/
def neighbours (m : Adjacency) (t : Term) : List Term := m.getD t []

/-- Add a neighbour to a term. -/
def link (m : Adjacency) (t neighbour : Term) : Adjacency :=
  m.insert t (addNew (m.neighbours t) neighbour)

theorem neighbours_link (m : Adjacency) (t neighbour other : Term) :
    (m.link t neighbour).neighbours other =
      if other = t then addNew (m.neighbours t) neighbour else m.neighbours other := by
  unfold link neighbours
  rw [Std.TreeMap.getD_insert]
  by_cases h : other = t
  · simp [h]
  · have : compare t other ≠ .eq := fun e => h (Std.LawfulEqOrd.eq_of_compare e).symm
    simp [h, this]

/-- Every term that is a neighbour of some term. -/
def targets (m : Adjacency) : List Term := m.toList.flatMap Prod.snd

theorem mem_targets {m : Adjacency} {t n : Term} (h : n ∈ m.neighbours t) : n ∈ m.targets := by
  unfold neighbours at h
  rw [Std.TreeMap.getD_eq_getD_getElem?] at h
  cases hm : m[t]? with
  | none => simp [hm] at h
  | some ns =>
    simp only [hm, Option.getD_some] at h
    exact List.mem_flatMap.2 ⟨(t, ns), Std.TreeMap.mem_toList_iff_getElem?_eq_some.2 hm, h⟩

/-! ## Transitive closure -/

/-- The neighbours of a frontier that have not been visited, each once. -/
def fresh (m : Adjacency) (visited frontier : List Term) : List Term :=
  (addAll [] (frontier.flatMap m.neighbours)).filter (· ∉ visited)

theorem mem_fresh {m : Adjacency} {visited frontier : List Term} {t : Term} :
    t ∈ m.fresh visited frontier ↔ (∃ f ∈ frontier, t ∈ m.neighbours f) ∧ t ∉ visited := by
  simp [fresh, mem_addAll, List.mem_flatMap]

set_option linter.unusedVariables false in
/-- What is reached from the frontier without going through `visited`, round by round. -/
def spread (m : Adjacency) (visited frontier : List Term) : List Term :=
  match h : m.fresh visited frontier with
  | [] => []
  | first :: more =>
    first :: more ++ spread m (visited ++ first :: more) (first :: more)
termination_by remaining m.targets visited
decreasing_by
  have mem : first ∈ m.fresh visited frontier := h ▸ List.mem_cons_self
  obtain ⟨⟨f, _, near⟩, new⟩ := mem_fresh.1 mem
  exact remaining_lt (List.subset_append_left visited _) (mem_targets near) new (by simp)

/-- Everything reached from a term by one or more steps, except the term itself:
nearer terms first. -/
def closure (m : Adjacency) (t : Term) : List Term := m.spread [t] [t]

end Adjacency

/-! ## The hierarchy -/

/-- The two directions of the subclass relation. -/
structure ClassHierarchy where
  above : Adjacency
  below : Adjacency
  deriving Repr

/-- The ways in which a class can be related to another. -/
inductive Kinship where
  | parent
  | child
  | ancestor
  | descendant
  deriving DecidableEq, Repr

namespace ClassHierarchy

/-- The hierarchy in which no class has a superclass. -/
def empty : ClassHierarchy := ⟨∅, ∅⟩

/-- Record that `child` is a subclass of `parent`.  That a class is a subclass
of itself says nothing and is not recorded. -/
def addEdge (h : ClassHierarchy) (child parent : Term) : ClassHierarchy :=
  if child = parent then h
  else { above := h.above.link child parent, below := h.below.link parent child }

/-- Record each (child, parent) pair in turn. -/
def addEdges (h : ClassHierarchy) (edges : List (Term × Term)) : ClassHierarchy :=
  edges.foldl (fun h e => h.addEdge e.1 e.2) h

/-- The hierarchy of the `rdfs:subClassOf` statements of a store. -/
def ofStore (s : TripleStore) : ClassHierarchy :=
  empty.addEdges
    ((s.toList.filter fun t => t.predicate == rdfs.subClassOf).map fun t => (t.subject, t.object))

/-- The classes related to a class in the given way. -/
def relatives (h : ClassHierarchy) : Kinship → Term → List Term
  | .parent, c => h.above.neighbours c
  | .child, c => h.below.neighbours c
  | .ancestor, c => h.above.closure c
  | .descendant, c => h.below.closure c

/-- Whether a class is a strict, possibly indirect subclass of another. -/
def isSubclassOf (h : ClassHierarchy) (c ancestor : Term) : Bool :=
  (h.relatives .ancestor c).contains ancestor

end ClassHierarchy

end ShaclTypes
