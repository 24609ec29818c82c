import ShaclTypes.Proofs.Sightings
set_option autoImplicit false

/-!
# Chains of cells

Whether a head denotes a collection is a matter of where its first next cells lead
(`Chain`).  They come to `rdf:nil`, or to a cell that lacks a part, or back to a cell
that they have passed; there is no fourth case, since a store is finite, and no two of
these can hold of one head.  Decoding gives the items in the first case and refuses
the head in the others (`decoding_follows_chains`).
-/

namespace ShaclTypes

open ShaclTypes.Rdf ShaclTypes.Vocabulary ShaclTypes.Values

namespace Rdf.TripleStore

/-- From the first cell, the first next cells lead past these cells to the last one.
Nothing is followed beyond `rdf:nil`. -/
inductive Chain (s : TripleStore) : Term → List Term → Term → Prop
  | refl (cell : Term) : Chain s cell [] cell
  | step {cell next last : Term} {cells : List Term} (inner : cell ≠ .iri rdf.nil)
      (rest : s.object? cell rdf.rest = some next) (tail : Chain s next cells last) :
      Chain s cell (cell :: cells) last

variable {s : TripleStore} {head cell last : Term} {cells : List Term}

namespace Chain

/-- There is one chain from a cell to `rdf:nil` at most. -/
theorem unique_of_nil {cells' : List Term} (h : s.Chain head cells (.iri rdf.nil))
    (h' : s.Chain head cells' (.iri rdf.nil)) : cells = cells' := by
  generalize hnil : Term.iri rdf.nil = last at h
  induction h generalizing cells' with
  | refl =>
    subst hnil
    cases h' with
    | refl => rfl
    | step inner => exact absurd rfl inner
  | step inner rest _ ih =>
    subst hnil
    cases h' with
    | refl => exact absurd rfl inner
    | step _ rest' tail' =>
      obtain rfl := Option.some.inj (rest.symm.trans rest')
      rw [ih tail' rfl]

/-- A cell that a chain passes has a chain of its own to the end. -/
theorem from_passed (h : s.Chain head cells last) (hcell : cell ∈ cells) :
    ∃ before after, cells = before ++ cell :: after ∧ s.Chain cell (cell :: after) last := by
  induction h with
  | refl => cases hcell
  | @step head next last cells inner rest tail ih =>
    rcases List.mem_cons.1 hcell with rfl | hlater
    · exact ⟨[], cells, rfl, .step inner rest tail⟩
    · obtain ⟨before, after, rfl, hchain⟩ := ih hlater
      exact ⟨head :: before, after, rfl, hchain⟩

/-- A chain that ends passes no cell twice. -/
theorem nodup_of_nil (h : s.Chain head cells (.iri rdf.nil)) : cells.Nodup := by
  generalize hnil : Term.iri rdf.nil = last at h
  induction h with
  | refl => exact List.nodup_nil
  | @step head next last cells inner rest tail ih =>
    subst hnil
    refine List.nodup_cons.2 ⟨fun hagain => ?_, ih rfl⟩
    -- the chain that starts where the cell is met again would be the whole chain
    obtain ⟨before, after, rfl, hchain⟩ := tail.from_passed hagain
    have hsame := congrArg List.length (hchain.unique_of_nil (.step inner rest tail))
    simp only [List.length_cons, List.length_append] at hsame
    omega

/-- Where a collection leads is a collection of what is left. -/
theorem isCollection {items : List Term} (h : s.Chain head cells last)
    (hitems : s.IsCollection head items) :
    ∃ left, s.IsCollection last left ∧ items.length = cells.length + left.length := by
  induction h generalizing items with
  | refl => exact ⟨items, hitems, (Nat.zero_add _).symm⟩
  | step inner rest _ ih =>
    cases hitems with
    | nil => exact absurd rfl inner
    | cons _ _ rest' hmore =>
      obtain rfl := Option.some.inj (rest.symm.trans rest')
      obtain ⟨left, hleft, hlength⟩ := ih hmore
      refine ⟨left, hleft, ?_⟩
      simp only [List.length_cons, hlength]
      omega

end Chain

/-- A collection is a chain to `rdf:nil` whose cells have the items. -/
theorem isCollection_iff_chain {items : List Term} :
    s.IsCollection head items ↔ ∃ cells, s.Chain head cells (.iri rdf.nil) ∧
      List.Forall₂ (fun cell item => s.object? cell rdf.first = some item) cells items := by
  constructor
  · intro h
    induction h with
    | nil => exact ⟨[], .refl _, .nil⟩
    | cons inner first rest _ ih =>
      obtain ⟨cells, hchain, hitems⟩ := ih
      exact ⟨_, .step inner rest hchain, .cons first hitems⟩
  · rintro ⟨cells, hchain, hitems⟩
    generalize hnil : Term.iri rdf.nil = last at hchain
    induction hchain generalizing items with
    | refl =>
      subst hnil
      cases hitems
      exact .nil
    | step inner rest _ ih =>
      cases hitems with
      | cons first hmore => exact .cons inner first rest (ih hmore hnil)

/-- The chain comes to a cell that lacks a part, or back to a cell that it has passed. -/
def GoesWrong (s : TripleStore) (head : Term) : Prop :=
  ∃ cells cell, s.Chain head cells cell ∧ cell ≠ .iri rdf.nil ∧
    (s.object? cell rdf.first = none ∨ s.object? cell rdf.rest = none ∨ cell ∈ cells)

/-- A collection does not go wrong. -/
theorem IsCollection.not_goesWrong {items : List Term} (h : s.IsCollection head items) :
    ¬s.GoesWrong head := by
  rintro ⟨cells, cell, hchain, hinner, hwrong⟩
  obtain ⟨left, hleft, -⟩ := hchain.isCollection h
  rcases hwrong with hfirst | hrest | hagain
  · cases hleft with
    | nil => exact hinner rfl
    | cons _ first => rw [hfirst] at first; cases first
  · cases hleft with
    | nil => exact hinner rfl
    | cons _ _ rest => rw [hrest] at rest; cases rest
  · -- what is left at the cell would be longer than itself
    obtain ⟨before, after, -, hloop⟩ := hchain.from_passed hagain
    obtain ⟨left', hleft', hlength⟩ := hloop.isCollection hleft
    rw [hleft.unique hleft', List.length_cons] at hlength
    omega

/-- What cannot be decoded goes wrong, at the latest at a cell that was visited before. -/
theorem exists_of_itemsFrom_eq_none {visited : List Term} (h : s.itemsFrom visited cell = none) :
    ∃ cells last, s.Chain cell cells last ∧ last ≠ .iri rdf.nil ∧
      (s.object? last rdf.first = none ∨ s.object? last rdf.rest = none ∨
        last ∈ cells ∨ last ∈ visited) := by
  induction visited, cell using itemsFrom.induct s with
  | case1 visited cell hnil =>
    rw [itemsFrom, if_pos hnil] at h
    cases h
  | case2 visited cell hinner hmem =>
    exact ⟨[], cell, .refl cell, by simpa using hinner, .inr (.inr (.inr hmem))⟩
  | case3 visited cell hinner _ hfirst =>
    exact ⟨[], cell, .refl cell, by simpa using hinner, .inl hfirst⟩
  | case4 visited cell hinner _ _ _ hrest =>
    exact ⟨[], cell, .refl cell, by simpa using hinner, .inr (.inl hrest)⟩
  | case5 visited cell hinner hfresh item hfirst next hrest ih =>
    have hcell : cell ≠ .iri rdf.nil := by simpa using hinner
    rw [itemsFrom_inner hcell hfresh, hfirst, hrest] at h
    obtain ⟨cells, last, hchain, hlast, hwrong⟩ := ih (Option.map_eq_none_iff.1 h)
    refine ⟨cell :: cells, last, .step hcell hrest hchain, hlast, ?_⟩
    rcases hwrong with hwrong | hwrong | hwrong | hwrong
    · exact .inl hwrong
    · exact .inr (.inl hwrong)
    · exact .inr (.inr (.inl (List.mem_cons_of_mem _ hwrong)))
    · rcases List.mem_cons.1 hwrong with rfl | hbefore
      · exact .inr (.inr (.inl List.mem_cons_self))
      · exact .inr (.inr (.inr hbefore))

/-- Every head denotes a collection or goes wrong. -/
theorem isCollection_or_goesWrong (s : TripleStore) (head : Term) :
    (∃ items, s.IsCollection head items) ∨ s.GoesWrong head := by
  cases h : s.collection? head with
  | some items => exact .inl ⟨items, collection?_eq_some_iff.1 h⟩
  | none =>
    obtain ⟨cells, last, hchain, hlast, hwrong⟩ := exists_of_itemsFrom_eq_none h
    refine .inr ⟨cells, last, hchain, hlast, ?_⟩
    simpa only [List.not_mem_nil, or_false] using hwrong

end Rdf.TripleStore

/-- Decoding a head gives a list of items exactly if the first next cells lead from the
head to `rdf:nil` and the items are the first items of these cells, in order.  It blames
the head, and nothing else, exactly if they lead to a cell without an item or without a
next cell, or back to a cell that they have passed.  A chain that leads to `rdf:nil`
passes no cell twice, so the search for cycles never refuses it. -/
theorem decoding_follows_chains (s : TripleStore) (head : Term) :
    (∀ list, items s head = .ok list ↔ ∃ cells, s.Chain head cells (.iri rdf.nil) ∧
      List.Forall₂ (fun cell item => s.object? cell rdf.first = some item) cells list) ∧
    (∀ e, items s head = .error e ↔ e = .malformedList head ∧
      ∃ cells cell, s.Chain head cells cell ∧ cell ≠ .iri rdf.nil ∧
        (s.object? cell rdf.first = none ∨ s.object? cell rdf.rest = none ∨ cell ∈ cells)) ∧
    ((∃ list, items s head = .ok list) ∨ items s head = .error (.malformedList head)) ∧
    ∀ cells, s.Chain head cells (.iri rdf.nil) → cells.Nodup := by
  have hok : ∀ list, items s head = .ok list ↔ s.IsCollection head list := fun _ => items_eq_ok
  have hends : (∃ list, items s head = .ok list) ∨
      items s head = .error (.malformedList head) := by
    unfold items
    cases s.collection? head with
    | some list => exact .inl ⟨list, rfl⟩
    | none => exact .inr rfl
  refine ⟨fun list => (hok list).trans TripleStore.isCollection_iff_chain, fun e => ⟨?_, ?_⟩,
    hends, fun _ h => h.nodup_of_nil⟩
  · intro herror
    obtain ⟨list, hlist⟩ | hblamed := hends
    · rw [hlist] at herror
      cases herror
    · refine ⟨Except.error.inj (herror.symm.trans hblamed), ?_⟩
      obtain ⟨list, hlist⟩ | hwrong := s.isCollection_or_goesWrong head
      · rw [(hok list).2 hlist] at herror
        cases herror
      · exact hwrong
  · rintro ⟨rfl, hwrong⟩
    obtain ⟨list, hlist⟩ | hblamed := hends
    · exact absurd hwrong ((hok list).1 hlist).not_goesWrong
    · exact hblamed

end ShaclTypes
