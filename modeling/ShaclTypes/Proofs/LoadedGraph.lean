import Mathlib.Data.List.Forall2
import Mathlib.Data.List.Nodup
import ShaclTypes.Proofs.Inline
import ShaclTypes.Shape.Loading
set_option autoImplicit false

/-!
# What loading guarantees

A shapes graph that is read off a list of statements has every property shape that one
of its shapes refers to, since the statement that refers to it is itself a sighting of
it.  No two of its shapes share an identifier, so none is hidden by another, and none
of them prefers literals as identifiers.
-/

namespace ShaclTypes

open ShaclTypes.Rdf ShaclTypes.Vocabulary ShaclTypes.Values

/-! ## Readings that succeed -/

section Readings

variable {ε α β : Type}

theorem bind_eq_ok {x : Except ε α} {f : α → Except ε β} {b : β} :
    (x >>= f) = .ok b ↔ ∃ a, x = .ok a ∧ f a = .ok b := by
  cases x <;> simp [bind, Except.bind]

/-- A list is read element by element. -/
theorem forall₂_of_mapM_eq_ok {f : α → Except ε β} {l : List α} {results : List β}
    (h : l.mapM f = .ok results) : List.Forall₂ (fun a b => f a = .ok b) l results := by
  induction l generalizing results with
  | nil => exact Except.ok.inj h ▸ .nil
  | cons a l ih =>
    rw [List.mapM_cons] at h
    obtain ⟨b, hb, hrest⟩ := bind_eq_ok.1 h
    obtain ⟨bs, hbs, hcons⟩ := bind_eq_ok.1 hrest
    exact Except.ok.inj hcons ▸ .cons hb (ih hbs)

theorem map_eq_of_mapM_eq_ok {f : α → Except ε β} {l : List α} {results : List β}
    (h : l.mapM f = .ok results) : l.map f = results.map .ok := by
  rw [← List.forall₂_eq_eq_eq, List.forall₂_map_left_iff, List.forall₂_map_right_iff]
  exact forall₂_of_mapM_eq_ok h

theorem exists_result_of_mem {f : α → Except ε β} {l : List α} {results : List β}
    (h : l.mapM f = .ok results) {a : α} (ha : a ∈ l) : ∃ b ∈ results, f a = .ok b := by
  obtain ⟨b, hb, hab⟩ := List.mem_map.1 (map_eq_of_mapM_eq_ok h ▸ List.mem_map_of_mem ha)
  exact ⟨b, hb, hab.symm⟩

theorem exists_source_of_mem {f : α → Except ε β} {l : List α} {results : List β}
    (h : l.mapM f = .ok results) {b : β} (hb : b ∈ results) : ∃ a ∈ l, f a = .ok b :=
  List.mem_map.1 (map_eq_of_mapM_eq_ok h ▸ List.mem_map_of_mem hb)

/-- A list can be read if its elements can. -/
theorem exists_mapM_eq_ok {f : α → Except ε β} {l : List α} (h : ∀ a ∈ l, ∃ b, f a = .ok b) :
    ∃ results, l.mapM f = .ok results := by
  induction l with
  | nil => exact ⟨[], rfl⟩
  | cons a l ih =>
    obtain ⟨b, hb⟩ := h a List.mem_cons_self
    obtain ⟨bs, hbs⟩ := ih fun c hc => h c (List.mem_cons_of_mem a hc)
    exact ⟨b :: bs, by rw [List.mapM_cons, hb, hbs]; rfl⟩

end Readings

namespace Rdf.TripleStore

theorem mem_toList_of_mem_about {s : TripleStore} {subject : Term} {t : Triple}
    (h : t ∈ s.about subject) : t ∈ s.toList := by
  obtain ⟨i, -, hi⟩ := List.mem_filterMap.1 h
  exact Array.mem_toList_iff.2 (Array.mem_of_getElem? hi)

/-- An object of a predicate is the object of a statement with the predicate. -/
theorem exists_of_mem_objects {s : TripleStore} {subject o : Term} {predicate : Iri}
    (h : o ∈ s.objects subject predicate) :
    ∃ t ∈ s.toList, t.predicate = predicate ∧ t.object = o := by
  obtain ⟨t, ht, rfl⟩ := List.mem_map.1 h
  obtain ⟨habout, hpredicate⟩ := List.mem_filter.1 ht
  exact ⟨t, mem_toList_of_mem_about habout, beq_iff_eq.1 hpredicate, rfl⟩

end Rdf.TripleStore

/-! ## Shapes that have been read -/

section Shapes

variable {s : TripleStore} {t : Term}

theorem properties_of_ofStore {c : Constraints} (h : Constraints.ofStore s t = .ok c) :
    c.properties = s.objects t sh.property := by
  simp only [Constraints.ofStore, bind_eq_ok] at h
  obtain ⟨_, -, _, -, _, -, _, -, _, -, _, -, _, -, _, -, _, -, _, -, _, -, hc⟩ := h
  obtain rfl := Except.ok.inj hc
  rfl

/-- The preferred kinds of identifiers are without literals. -/
theorem identifierKinds_of_ofStore {a : Annotations} (h : Annotations.ofStore s t = .ok a) :
    NodeKind.literal ∉ a.identifierKinds := by
  simp only [Annotations.ofStore, bind_eq_ok] at h
  obtain ⟨_, -, _, -, _, -, _, -, _, -, _, -, _, -, _, -, _, -, _, -, _, -, _, -, kinds, hkinds,
    _, -, ha⟩ := h
  obtain rfl := Except.ok.inj ha
  intro hliteral
  obtain ⟨set, hset, hmem⟩ := NodeKinds.mem_unions.1 hliteral
  obtain ⟨value, -, hvalue⟩ := exists_source_of_mem hkinds hset
  obtain ⟨kinds', -, hchecked⟩ := bind_eq_ok.1 hvalue
  split at hchecked
  · cases hchecked
  · next hnone =>
    obtain rfl := Except.ok.inj hchecked
    exact hnone hmem

/-- A shape is read under its identifier, with the parts that are read for it. -/
theorem shape_of_ofStore {shape : Shape} (h : Shape.ofStore s t = .ok shape) :
    shape.identifier = t ∧ Constraints.ofStore s t = .ok shape.constraints ∧
      Annotations.ofStore s t = .ok shape.annotations := by
  simp only [Shape.ofStore, bind_eq_ok] at h
  obtain ⟨_, -, _, -, constraints, hconstraints, annotations, hannotations, hshape⟩ := h
  obtain rfl := Except.ok.inj hshape
  exact ⟨rfl, hconstraints, hannotations⟩

end Shapes

/-! ## Loaded graphs -/

namespace ShapesGraph

/-- What is true of a graph that has been read off statements. -/
structure Loaded (g : ShapesGraph) : Prop where
  distinct : g.identifiers.Nodup
  properties : ∀ s ∈ g.shapes, ∀ t ∈ s.constraints.properties, t ∈ g.identifiers
  identifierKinds : ∀ s ∈ g.shapes, NodeKind.literal ∉ s.annotations.identifierKinds

/-- A statement that refers to a property shape is a sighting of it. -/
theorem object_mem_of_property {s : TripleStore} {t : Triple} {sighting : Sighting}
    (h : Sighting.ofTriple s t = .ok sighting) (hproperty : t.predicate = sh.property) :
    t.object ∈ sighting.shapes := by
  unfold Sighting.ofTriple at h
  rw [hproperty, if_neg (by decide), if_neg (by decide), if_pos rfl] at h
  obtain rfl := Except.ok.inj h
  simp

/-- A graph is read off the statements of a store, in which these sightings are made. -/
structure ReadOff (s : TripleStore) (sightings : List Sighting) (g : ShapesGraph) : Prop where
  scanned : s.toList.mapM (Sighting.ofTriple s) = .ok sightings
  shapes : (addAll [] (sightings.flatMap Sighting.shapes)).mapM (Shape.ofStore s) = .ok g.shapes
  declared : g.declared = (addAll [] (sightings.flatMap Sighting.nodeShapes)).filter
    fun t => (s.object? t sh.path).isNone
  hierarchy : g.hierarchy = .ofStore s

theorem readOff_of_ofTriples {triples : List Triple} {prefixes : PrefixMap} {g : ShapesGraph}
    (h : ofTriples triples prefixes = .ok g) :
    ∃ sightings, ReadOff (.ofList triples) sightings g := by
  unfold ofTriples ofStore at h
  obtain ⟨sightings, hsightings, hrest⟩ := bind_eq_ok.1 h
  obtain ⟨shapes, hshapes, hg⟩ := bind_eq_ok.1 hrest
  obtain rfl := Except.ok.inj hg
  exact ⟨sightings, hsightings, hshapes, rfl, rfl⟩

section ReadOff

variable {s : TripleStore} {sightings : List Sighting} {g : ShapesGraph}
variable (h : ReadOff s sightings g)
include h

/-- The identifiers are the terms that have been sighted as shapes, each once. -/
theorem ReadOff.identifiers_eq :
    g.identifiers = addAll [] (sightings.flatMap Sighting.shapes) := by
  have hread := (forall₂_of_mapM_eq_ok h.shapes).imp fun _ _ h => (shape_of_ofStore h).1.symm
  rw [← List.forall₂_map_right_iff, List.forall₂_eq_eq_eq] at hread
  exact hread.symm

/-- A shape of the graph is read off the statements about its identifier. -/
theorem ReadOff.ofStore_identifier {shape : Shape} (hshape : shape ∈ g.shapes) :
    Shape.ofStore s shape.identifier = .ok shape := by
  obtain ⟨identifier, -, hof⟩ := exists_source_of_mem h.shapes hshape
  rw [(shape_of_ofStore hof).1]
  exact hof

/-- What a statement shows is among the identifiers. -/
theorem ReadOff.mem_identifiers {t : Term} : t ∈ g.identifiers ↔
    ∃ statement ∈ s.toList, ∃ sighting, Sighting.ofTriple s statement = .ok sighting ∧
      t ∈ sighting.shapes := by
  simp only [h.identifiers_eq, mem_addAll, List.not_mem_nil, false_or, List.mem_flatMap]
  constructor
  · rintro ⟨sighting, hsighting, ht⟩
    obtain ⟨statement, hstatement, hof⟩ := exists_source_of_mem h.scanned hsighting
    exact ⟨statement, hstatement, sighting, hof, ht⟩
  · rintro ⟨statement, hstatement, sighting, hof, ht⟩
    obtain ⟨sighting', hsighting, hof'⟩ := exists_result_of_mem h.scanned hstatement
    obtain rfl := Except.ok.inj (hof.symm.trans hof')
    exact ⟨sighting, hsighting, ht⟩

end ReadOff

/-- Loading guarantees what is true of a loaded graph. -/
theorem loaded_of_ofTriples {triples : List Triple} {prefixes : PrefixMap} {g : ShapesGraph}
    (h : ofTriples triples prefixes = .ok g) : g.Loaded := by
  obtain ⟨sightings, hread⟩ := readOff_of_ofTriples h
  refine ⟨?_, ?_, ?_⟩
  · rw [hread.identifiers_eq]
    exact nodup_addAll List.nodup_nil _
  · intro shape hshape t ht
    have hof := shape_of_ofStore (hread.ofStore_identifier hshape)
    rw [properties_of_ofStore hof.2.1] at ht
    obtain ⟨statement, hstatement, hproperty, rfl⟩ := TripleStore.exists_of_mem_objects ht
    obtain ⟨sighting, -, hsighted⟩ := exists_result_of_mem hread.scanned hstatement
    exact hread.mem_identifiers.2
      ⟨statement, hstatement, sighting, hsighted, object_mem_of_property hsighted hproperty⟩
  · intro shape hshape
    exact identifierKinds_of_ofStore (shape_of_ofStore (hread.ofStore_identifier hshape)).2.2

section Lookup

variable {g : ShapesGraph} (h : g.Loaded)
include h

/-- No shape of a loaded graph is hidden by another. -/
theorem Loaded.found (s : g.Member) : Found s := by
  obtain ⟨r, hr⟩ := Option.isSome_iff_exists.1 (member?_isSome.2 s.mem_identifiers)
  have hsame : r = s := by
    refine Subtype.ext (List.inj_on_of_nodup_map h.distinct r.2 s.2 ?_)
    exact identifier_of_member? hr
  rw [Found, hr, hsame]

/-- A loaded graph has the property shapes of its shapes. -/
theorem Loaded.propertyShapes (s : g.Member) :
    ∃ properties, g.propertyShapes s.1 = .ok properties := by
  refine exists_mapM_eq_ok fun t ht => ?_
  obtain ⟨r, hr⟩ := Option.isSome_iff_exists.1 (member?_isSome.2 (h.properties s.1 s.2 t ht))
  exact ⟨r, by rw [require, hr]⟩

end Lookup

end ShapesGraph

end ShaclTypes
