import ShaclTypes.Rdf.Collection
set_option autoImplicit false

/-!
# What a collection denotes

The cells of a collection spelled out as a relation, without a record of the cells
that have been visited (`IsCollection`).  A head denotes one list of items at most,
so a chain that ends never comes back to one of its cells, and decoding it gives its
items (`collection?_eq_some_iff`).
-/

namespace ShaclTypes.Rdf.TripleStore

open ShaclTypes.Vocabulary

/-- The first items and first next cells from a cell on lead to `rdf:nil`, and the
items are these. -/
inductive IsCollection (s : TripleStore) : Term → List Term → Prop
  | nil : IsCollection s (.iri rdf.nil) []
  | cons {cell item next : Term} {items : List Term} (inner : cell ≠ .iri rdf.nil)
      (first : s.object? cell rdf.first = some item) (rest : s.object? cell rdf.rest = some next)
      (tail : IsCollection s next items) : IsCollection s cell (item :: items)

variable {s : TripleStore}

/-- A cell denotes one list of items at most. -/
theorem IsCollection.unique {cell : Term} {items items' : List Term} (h : s.IsCollection cell items)
    (h' : s.IsCollection cell items') : items = items' := by
  induction h generalizing items' with
  | nil =>
    cases h' with
    | nil => rfl
    | cons inner => exact absurd rfl inner
  | cons inner first rest tail ih =>
    cases h' with
    | nil => exact absurd rfl inner
    | cons inner' first' rest' tail' =>
      obtain rfl := Option.some.inj (first.symm.trans first')
      obtain rfl := Option.some.inj (rest.symm.trans rest')
      rw [ih tail']

/-- Decoding an inner cell that has not been visited takes its first item and goes on
with its first next cell. -/
theorem itemsFrom_inner {visited : List Term} {cell : Term} (inner : cell ≠ .iri rdf.nil)
    (fresh : cell ∉ visited) :
    s.itemsFrom visited cell =
      (s.object? cell rdf.first).bind fun item => (s.object? cell rdf.rest).bind fun next =>
        (s.itemsFrom (cell :: visited) next).map (item :: ·) := by
  rw [itemsFrom, if_neg (by simpa using inner), dif_neg fresh]
  split
  · next hfirst => rw [hfirst, Option.bind_none]
  · next item hfirst =>
    rw [hfirst, Option.bind_some]
    cases s.object? cell rdf.rest <;> rfl

/-- What is decoded from a cell on is what the cell denotes. -/
theorem isCollection_of_itemsFrom {visited : List Term} {cell : Term} {items : List Term}
    (h : s.itemsFrom visited cell = some items) : s.IsCollection cell items := by
  induction visited, cell using itemsFrom.induct s generalizing items with
  | case1 visited cell hnil =>
    rw [itemsFrom, if_pos hnil] at h
    obtain rfl := Option.some.inj h
    exact Term.isIri_eq_true.1 hnil ▸ .nil
  | case2 visited cell hinner hmem =>
    rw [itemsFrom, if_neg hinner, dif_pos hmem] at h
    cases h
  | case3 visited cell hinner hfresh hfirst =>
    rw [itemsFrom_inner (by simpa using hinner) hfresh, hfirst] at h
    cases h
  | case4 visited cell hinner hfresh item hfirst hrest =>
    rw [itemsFrom_inner (by simpa using hinner) hfresh, hfirst, hrest] at h
    cases h
  | case5 visited cell hinner hfresh item hfirst next hrest ih =>
    have hcell : cell ≠ .iri rdf.nil := by simpa using hinner
    rw [itemsFrom_inner hcell hfresh, hfirst, hrest] at h
    obtain ⟨more, hmore, rfl⟩ := Option.map_eq_some_iff.1 h
    exact .cons hcell hfirst hrest (ih hmore)

/-- What a cell denotes is decoded from it on, if every cell before it denotes more. -/
theorem itemsFrom_of_isCollection {cell : Term} {items visited : List Term}
    (h : s.IsCollection cell items)
    (hvisited : ∀ v ∈ visited, ∃ more, s.IsCollection v more ∧ items.length < more.length) :
    s.itemsFrom visited cell = some items := by
  induction h generalizing visited with
  | nil => simp [itemsFrom]
  | @cons cell item next items inner first rest tail ih =>
    have hcell : s.IsCollection cell (item :: items) := .cons inner first rest tail
    have hfresh : cell ∉ visited := by
      intro hmem
      obtain ⟨more, hmore, hlt⟩ := hvisited cell hmem
      rw [hmore.unique hcell] at hlt
      exact Nat.lt_irrefl _ hlt
    have hbefore : ∀ v ∈ cell :: visited, ∃ more,
        s.IsCollection v more ∧ items.length < more.length := by
      intro v hv
      rcases List.mem_cons.1 hv with rfl | hv
      · exact ⟨_, hcell, Nat.lt_succ_self _⟩
      · obtain ⟨more, hmore, hlt⟩ := hvisited v hv
        exact ⟨more, hmore, Nat.lt_of_succ_lt hlt⟩
    rw [itemsFrom_inner inner hfresh, first, Option.bind_some, rest, Option.bind_some,
      ih hbefore, Option.map_some]

/-- Decoding succeeds exactly on what denotes a list, and with this list. -/
theorem collection?_eq_some_iff {head : Term} {items : List Term} :
    s.collection? head = some items ↔ s.IsCollection head items :=
  ⟨isCollection_of_itemsFrom, fun h => itemsFrom_of_isCollection h fun _ hv => by cases hv⟩

end ShaclTypes.Rdf.TripleStore
