import ShaclTypes.Distinct
import ShaclTypes.Rdf.Order
set_option autoImplicit false

/-!
# Triple store

Statements in the order in which they were first added, each once, with an
index of their positions by subject and another by object.  Every query about a
subject or an object visits only the positions that its index holds, and
answers in the order of the statements.

`StoreIndex.positions_add` says what an addition does to an index.
-/

namespace ShaclTypes.Rdf

/-! ## Positions by term -/

/-- Ascending positions of statements, by a term that they contain. -/
abbrev StoreIndex := Std.TreeMap Term (Array Nat)

namespace StoreIndex

/-- The positions recorded for a term. -/
def positions (index : StoreIndex) (t : Term) : Array Nat := index.getD t #[]

/-- Record one more position for a term. -/
def add (index : StoreIndex) (t : Term) (position : Nat) : StoreIndex :=
  index.insert t ((index.positions t).push position)

theorem positions_add (index : StoreIndex) (t other : Term) (position : Nat) :
    (index.add t position).positions other =
      if other = t then (index.positions t).push position else index.positions other := by
  unfold add positions
  rw [Std.TreeMap.getD_insert]
  by_cases h : other = t
  · simp [h]
  · have : compare t other ≠ .eq := fun e => h (Std.LawfulEqOrd.eq_of_compare e).symm
    simp [h, this]

end StoreIndex

/-! ## The store -/

/-- An indexed list of statements. -/
structure TripleStore where
  triples : Array Triple
  bySubject : StoreIndex
  byObject : StoreIndex
  deriving Repr

namespace TripleStore

/-- The store without statements. -/
def empty : TripleStore := ⟨#[], ∅, ∅⟩

/-- The number of statements. -/
def size (s : TripleStore) : Nat := s.triples.size

/-- The statements at the positions that an index holds for a term. -/
def lookup (s : TripleStore) (index : StoreIndex) (t : Term) : List Triple :=
  (index.positions t).toList.filterMap fun i => s.triples[i]?

/-- The statements about a subject, in order. -/
def about (s : TripleStore) (subject : Term) : List Triple := s.lookup s.bySubject subject

/-- The statements with an object, in order. -/
def pointingTo (s : TripleStore) (object : Term) : List Triple := s.lookup s.byObject object

/-- Whether a statement is in the store. -/
def contains (s : TripleStore) (t : Triple) : Bool := (s.about t.subject).contains t

/-- Add a statement, unless it is there already. -/
def add (s : TripleStore) (t : Triple) : TripleStore :=
  if s.contains t then s
  else
    { triples := s.triples.push t
      bySubject := s.bySubject.add t.subject s.size
      byObject := s.byObject.add t.object s.size }

/-- The store of the given statements. -/
def ofList (triples : List Triple) : TripleStore := triples.foldl add empty

/-- The statements in the order in which they were first added. -/
def toList (s : TripleStore) : List Triple := s.triples.toList

/-! ## Queries -/

/-- The objects that a subject has for a predicate. -/
def objects (s : TripleStore) (subject : Term) (predicate : Iri) : List Term :=
  ((s.about subject).filter fun t => t.predicate == predicate).map Triple.object

/-- The first object that a subject has for a predicate. -/
def object? (s : TripleStore) (subject : Term) (predicate : Iri) : Option Term :=
  ((s.about subject).find? fun t => t.predicate == predicate).map Triple.object

/-- The subjects that have an object for a predicate. -/
def subjects (s : TripleStore) (predicate : Iri) (object : Term) : List Term :=
  ((s.pointingTo object).filter fun t => t.predicate == predicate).map Triple.subject

/-- Whether a subject has an object for a predicate. -/
def has (s : TripleStore) (t : Triple) : Bool := (s.objects t.subject t.predicate).contains t.object

/-- The subjects of all statements, each once. -/
def subjectTerms (s : TripleStore) : List Term := addAll [] (s.toList.map Triple.subject)

/-- The predicates of the statements about a subject, with repeats. -/
def predicatesOf (s : TripleStore) (subject : Term) : List Iri :=
  (s.about subject).map Triple.predicate

theorem object?_eq_head? (s : TripleStore) (subject : Term) (predicate : Iri) :
    s.object? subject predicate = (s.objects subject predicate).head? := by
  simp [object?, objects]

/-- A term that has an object is among the keys of the subject index. -/
theorem mem_keys_of_object? {s : TripleStore} {subject : Term} {predicate : Iri} {o : Term}
    (h : s.object? subject predicate = some o) : subject ∈ s.bySubject.keys := by
  rw [Std.TreeMap.mem_keys]
  apply Decidable.byContradiction
  intro absent
  have none : s.bySubject.positions subject = #[] := Std.TreeMap.getD_eq_fallback absent
  simp [object?, about, lookup, none] at h

end TripleStore

end ShaclTypes.Rdf
