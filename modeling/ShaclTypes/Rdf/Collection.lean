import ShaclTypes.Rdf.TripleStore
import ShaclTypes.Vocabulary
set_option autoImplicit false

/-!
# RDF collections

A collection is a chain of cells: each has an item under `rdf:first` and the
next cell under `rdf:rest`, and the chain ends at `rdf:nil`.  Decoding follows
the first item and the first next cell of every cell.  A chain that comes back
to a cell never ends, and a cell that lacks either part breaks the chain; both
are refused.  `rdf:nil` ends the chain whatever statements are made about it.
-/

namespace ShaclTypes.Rdf.TripleStore

open ShaclTypes.Vocabulary

set_option linter.unusedVariables false in
/-- The items from `cell` on, where `visited` are the cells before it. -/
def itemsFrom (s : TripleStore) (visited : List Term) (cell : Term) : Option (List Term) :=
  if cell.isIri rdf.nil then some []
  else if fresh : cell ∈ visited then none
  else
    match h : s.object? cell rdf.first with
    | none => none
    | some item =>
      match s.object? cell rdf.rest with
      | none => none
      | some next => (itemsFrom s (cell :: visited) next).map (item :: ·)
termination_by remaining s.bySubject.keys visited
decreasing_by
  exact remaining_lt (List.subset_cons_self cell visited) (mem_keys_of_object? h) fresh
    List.mem_cons_self

/-- The items of the collection that starts at `head`, if it is well formed. -/
def collection? (s : TripleStore) (head : Term) : Option (List Term) := s.itemsFrom [] head

@[simp] theorem collection?_nil (s : TripleStore) : s.collection? (.iri rdf.nil) = some [] := by
  simp [collection?, itemsFrom]

end ShaclTypes.Rdf.TripleStore
