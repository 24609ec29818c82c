import ShaclTypes.Proofs.Collections
import ShaclTypes.Proofs.LoadedGraph
import ShaclTypes.Proofs.Scanning
set_option autoImplicit false

/-!
# Sightings of shapes

Loading finds shapes in one pass over the statements and reads their constraints in
another, by other indexes.  `RefersToShape` says without either what in a statement
counts as a shape.  The first pass finds exactly this (`mem_shapes_ofTriple`), and
whatever a constraint lists is referred to by the statement that it is read off, so
a loaded graph has a shape for everything that its shapes mention
(`loaded_graph_closed`).
-/

namespace ShaclTypes

open ShaclTypes.Rdf ShaclTypes.Vocabulary ShaclTypes.Values

/-! ## References to shapes -/

/-- Among the statements of a store, a statement refers to a term as a shape. -/
inductive RefersToShape (s : TripleStore) : Triple → Term → Prop
  | nodeShape (t : Term) : RefersToShape s ⟨t, rdf.type, .iri sh.nodeShape⟩ t
  | propertyShape (t : Term) : RefersToShape s ⟨t, rdf.type, .iri sh.propertyShape⟩ t
  | path (t node : Term) : RefersToShape s ⟨t, sh.path, node⟩ t
  | owner (t o : Term) : RefersToShape s ⟨t, sh.property, o⟩ t
  | property (subject t : Term) : RefersToShape s ⟨subject, sh.property, t⟩ t
  | node (subject t : Term) : RefersToShape s ⟨subject, sh.node, t⟩ t
  | member {predicate : Iri} {head t : Term} {items : List Term} (subject : Term)
      (hpredicate : predicate ∈ [sh.conjunction, sh.disjunction, sh.exclusiveDisjunction])
      (hitems : s.IsCollection head items) (hmem : t ∈ items) :
      RefersToShape s ⟨subject, predicate, head⟩ t

theorem items_eq_ok {s : TripleStore} {head : Term} {list : List Term} :
    items s head = .ok list ↔ s.IsCollection head list := by
  rw [← TripleStore.collection?_eq_some_iff, items]
  cases s.collection? head <;> simp

/-- The predicates of the statements that list the members of a composite. -/
theorem composite_predicate {predicate : Iri}
    (h : predicate ∈ [sh.conjunction, sh.disjunction, sh.exclusiveDisjunction]) :
    predicate ≠ rdf.type ∧ predicate ≠ sh.path ∧ predicate ≠ sh.property ∧ predicate ≠ sh.node := by
  simp only [List.mem_cons, List.not_mem_nil, or_false] at h
  rcases h with rfl | rfl | rfl <;> decide

/-- A statement that lists members shows them. -/
theorem ofTriple_composite {s : TripleStore} {subject head : Term} {predicate : Iri}
    {sighting : Sighting}
    (h : predicate ∈ [sh.conjunction, sh.disjunction, sh.exclusiveDisjunction]) :
    Sighting.ofTriple s ⟨subject, predicate, head⟩ = .ok sighting ↔
      ∃ members, s.IsCollection head members ∧ sighting = { shapes := members } := by
  obtain ⟨htype, hpath, hproperty, hnode⟩ := composite_predicate h
  rw [Sighting.ofTriple, if_neg htype, if_neg hpath, if_neg hproperty, if_neg hnode,
    if_pos (by simpa using h), bind_eq_ok]
  exact exists_congr fun members => and_congr items_eq_ok
    ⟨fun h => (Except.ok.inj h).symm, fun h => h ▸ rfl⟩

/-- What a statement shows that is no list of members. -/
theorem ofTriple_single {s : TripleStore} {subject object : Term} {predicate : Iri}
    (h : predicate ∉ [sh.conjunction, sh.disjunction, sh.exclusiveDisjunction]) :
    Sighting.ofTriple s ⟨subject, predicate, object⟩ = .ok
      (if predicate = rdf.type then
        if object = .iri sh.nodeShape then { shapes := [subject], nodeShapes := [subject] }
        else if object = .iri sh.propertyShape then { shapes := [subject] }
        else {}
      else if predicate = sh.path then { shapes := [subject] }
      else if predicate = sh.property then
        { shapes := [subject, object], nodeShapes := [subject] }
      else if predicate = sh.node then { shapes := [object] }
      else {}) := by
  simp only [List.mem_cons, List.not_mem_nil, or_false] at h
  simp only [Sighting.ofTriple, Term.isIri_eq_true, if_neg h]
  repeat' split
  all_goals rfl

/-- A statement shows the shapes that it refers to. -/
theorem mem_shapes_ofTriple {s : TripleStore} {statement : Triple} {sighting : Sighting}
    (h : Sighting.ofTriple s statement = .ok sighting) {t : Term} :
    t ∈ sighting.shapes ↔ RefersToShape s statement t := by
  obtain ⟨subject, predicate, object⟩ := statement
  by_cases hcomposite : predicate ∈ [sh.conjunction, sh.disjunction, sh.exclusiveDisjunction]
  · obtain ⟨htype, hpath, hproperty, hnode⟩ := composite_predicate hcomposite
    obtain ⟨members, hmembers, rfl⟩ := (ofTriple_composite hcomposite).1 h
    constructor
    · exact fun ht => .member subject hcomposite hmembers ht
    · intro ht
      cases ht with
      | member _ _ hmembers' hmem => exact hmembers.unique hmembers' ▸ hmem
      | _ => contradiction
  · rw [ofTriple_single hcomposite] at h
    obtain rfl := Except.ok.inj h
    constructor
    · intro ht
      split at ht
      · next htype =>
        subst htype
        split at ht
        · next hobject =>
          obtain rfl := List.mem_singleton.1 ht
          exact hobject ▸ .nodeShape t
        · split at ht
          · next hobject =>
            obtain rfl := List.mem_singleton.1 ht
            exact hobject ▸ .propertyShape t
          · cases ht
      · split at ht
        · next hpath =>
          obtain rfl := List.mem_singleton.1 ht
          exact hpath ▸ .path t object
        · split at ht
          · next hproperty =>
            subst hproperty
            rcases List.mem_pair.1 ht with rfl | rfl
            · exact .owner t object
            · exact .property subject t
          · split at ht
            · next hnode =>
              obtain rfl := List.mem_singleton.1 ht
              exact hnode ▸ .node subject t
            · cases ht
    · intro ht
      cases ht with
      | nodeShape => simp
      | propertyShape => simp [show sh.propertyShape ≠ sh.nodeShape by decide]
      | path => simp [show sh.path ≠ rdf.type by decide]
      | owner | property =>
        simp [show sh.property ≠ rdf.type by decide, show sh.property ≠ sh.path by decide]
      | node =>
        simp [show sh.node ≠ rdf.type by decide, show sh.node ≠ sh.path by decide,
          show sh.node ≠ sh.property by decide]
      | member _ hpredicate => exact absurd hpredicate hcomposite

/-- What a statement declares to be a node shape, it shows as a shape. -/
theorem nodeShapes_subset_shapes {s : TripleStore} {statement : Triple} {sighting : Sighting}
    (h : Sighting.ofTriple s statement = .ok sighting) : sighting.nodeShapes ⊆ sighting.shapes := by
  obtain ⟨subject, predicate, object⟩ := statement
  by_cases hcomposite : predicate ∈ [sh.conjunction, sh.disjunction, sh.exclusiveDisjunction]
  · obtain ⟨members, -, rfl⟩ := (ofTriple_composite hcomposite).1 h
    exact List.nil_subset _
  · rw [ofTriple_single hcomposite] at h
    obtain rfl := Except.ok.inj h
    repeat' split
    all_goals simp

/-! ## What shapes mention -/

section Shapes

variable {s : TripleStore} {t : Term}

/-- The members that a shape lists for a predicate are items of its collections. -/
theorem exists_collection_of_mem_members {predicate : Iri} {list : List Term} {x : Term}
    (h : members s t predicate = .ok list) (hx : x ∈ list) :
    ∃ head ∈ s.objects t predicate, ∃ items, s.IsCollection head items ∧ x ∈ items := by
  obtain ⟨lists, hlists, hflat⟩ := bind_eq_ok.1 h
  obtain rfl := Except.ok.inj hflat
  obtain ⟨items, hitems, hmem⟩ := List.mem_flatten.1 hx
  obtain ⟨head, hhead, hof⟩ := exists_source_of_mem hlists hitems
  exact ⟨head, hhead, items, items_eq_ok.1 hof, hmem⟩

/-- Where the lists of shapes in the constraints of a shape come from. -/
theorem composition_of_ofStore {c : Constraints} (h : Constraints.ofStore s t = .ok c) :
    members s t sh.conjunction = .ok c.allOf ∧
      (∃ inclusive exclusive, members s t sh.disjunction = .ok inclusive ∧
        members s t sh.exclusiveDisjunction = .ok exclusive ∧ c.anyOf = inclusive ++ exclusive) ∧
      c.nodes = s.objects t sh.node := by
  simp only [Constraints.ofStore, bind_eq_ok] at h
  obtain ⟨allOf, hallOf, inclusive, hinclusive, exclusive, hexclusive, _, -, _, -, _, -, _, -,
    _, -, _, -, _, -, _, -, hc⟩ := h
  obtain rfl := Except.ok.inj hc
  exact ⟨hallOf, ⟨inclusive, exclusive, hinclusive, hexclusive, rfl⟩, rfl⟩

/-- A shape is a property shape if its identifier has a path. -/
theorem isPropertyShape_of_ofStore {shape : Shape} (h : Shape.ofStore s t = .ok shape) :
    shape.isPropertyShape = (s.object? t sh.path).isSome := by
  simp only [Shape.ofStore, bind_eq_ok] at h
  obtain ⟨path, hpath, _, -, _, -, _, -, hshape⟩ := h
  obtain rfl := Except.ok.inj hshape
  unfold Shape.pathOfStore at hpath
  cases hobject : s.object? t sh.path with
  | none =>
    rw [hobject] at hpath
    obtain rfl := Except.ok.inj hpath
    rfl
  | some node =>
    rw [hobject] at hpath
    cases hread : Path.ofNode s [] node with
    | error e => simp [hread, Except.map] at hpath
    | ok p =>
      simp only [hread, Except.map, Except.ok.injEq] at hpath
      subst hpath
      rfl

end Shapes

/-- The terms that constraints mention as shapes. -/
def Constraints.mentions (c : Constraints) : List Term :=
  c.allOf ++ c.anyOf ++ c.nodes ++ c.properties

namespace ShapesGraph

section ReadOff

variable {s : TripleStore} {sightings : List Sighting} {g : ShapesGraph}
variable (h : ReadOff s sightings g)
include h

/-- The shapes are the terms that a statement refers to as shapes. -/
theorem ReadOff.mem_identifiers_iff {t : Term} :
    t ∈ g.identifiers ↔ ∃ statement ∈ s.toList, RefersToShape s statement t := by
  rw [h.mem_identifiers]
  refine exists_congr fun statement => and_congr_right fun hstatement => ?_
  obtain ⟨sighting, -, hof⟩ := exists_result_of_mem h.scanned hstatement
  constructor
  · rintro ⟨sighting', hof', ht⟩
    exact (mem_shapes_ofTriple hof').1 ht
  · exact fun ht => ⟨sighting, hof, (mem_shapes_ofTriple hof).2 ht⟩

/-- What the constraints of a shape mention, a statement about the shape refers to. -/
theorem ReadOff.refersToShape_of_mention {shape : Shape} (hshape : shape ∈ g.shapes) {x : Term}
    (hx : x ∈ shape.constraints.mentions) :
    ∃ statement ∈ s.toList, RefersToShape s statement x := by
  have hconstraints := (shape_of_ofStore (h.ofStore_identifier hshape)).2.1
  obtain ⟨hallOf, ⟨inclusive, exclusive, hinclusive, hexclusive, hanyOf⟩, hnodes⟩ :=
    composition_of_ofStore hconstraints
  have hmember : ∀ {predicate : Iri} {list : List Term},
      predicate ∈ [sh.conjunction, sh.disjunction, sh.exclusiveDisjunction] →
      members s shape.identifier predicate = .ok list → x ∈ list →
      ∃ statement ∈ s.toList, RefersToShape s statement x := by
    intro predicate list hpredicate hlist hmem
    obtain ⟨head, hhead, items, hitems, hmem⟩ := exists_collection_of_mem_members hlist hmem
    obtain ⟨⟨subject, _, _⟩, hstatement, rfl, rfl⟩ := TripleStore.exists_of_mem_objects hhead
    exact ⟨_, hstatement, .member subject hpredicate hitems hmem⟩
  simp only [Constraints.mentions, List.mem_append] at hx
  rcases hx with ((hx | hx) | hx) | hx
  · exact hmember (by simp) hallOf hx
  · rw [hanyOf] at hx
    rcases List.mem_append.1 hx with hx | hx
    · exact hmember (by simp) hinclusive hx
    · exact hmember (by simp) hexclusive hx
  · rw [hnodes] at hx
    obtain ⟨⟨subject, _, _⟩, hstatement, rfl, rfl⟩ := TripleStore.exists_of_mem_objects hx
    exact ⟨_, hstatement, .node subject _⟩
  · rw [properties_of_ofStore hconstraints] at hx
    obtain ⟨⟨subject, _, _⟩, hstatement, rfl, rfl⟩ := TripleStore.exists_of_mem_objects hx
    exact ⟨_, hstatement, .property subject _⟩

/-- A term is declared if a statement declares it and it has no path. -/
theorem ReadOff.mem_declared {t : Term} (ht : t ∈ g.declared) :
    t ∈ g.identifiers ∧ s.object? t sh.path = none := by
  rw [h.declared, List.mem_filter, mem_addAll] at ht
  obtain ⟨hnil | hsighted, hpath⟩ := ht
  · cases hnil
  refine ⟨?_, Option.isNone_iff_eq_none.1 hpath⟩
  obtain ⟨sighting, hsighting, hdeclared⟩ := List.mem_flatMap.1 hsighted
  obtain ⟨statement, hstatement, hof⟩ := exists_source_of_mem h.scanned hsighting
  exact h.mem_identifiers.2
    ⟨statement, hstatement, sighting, hof, nodeShapes_subset_shapes hof hdeclared⟩

end ReadOff

/-- A graph that is loaded from statements has no two shapes with one identifier.  It has
a shape for every term that its shapes mention, so that no property shape and no member
is missed, and its shapes are exactly those that the statements refer to.  What it
declares are shapes without a path, each once; a shape for which a path is stated is a
property shape and is not declared. -/
theorem loaded_graph_closed {triples : List Triple} {prefixes : PrefixMap} {g : ShapesGraph}
    (hload : ofTriples triples prefixes = .ok g) :
    g.identifiers.Nodup ∧
    (∀ s ∈ g.shapes, (∀ t ∈ s.constraints.mentions, (g.member? t).isSome = true) ∧
      ∃ properties, g.propertyShapes s = .ok properties) ∧
    (∀ t, t ∈ g.identifiers ↔
      ∃ statement ∈ triples, RefersToShape (.ofList triples) statement t) ∧
    g.declared.Nodup ∧
    (∀ t ∈ g.declared, ∃ s, g.member? t = some s ∧ s.1.isNodeShape = true) ∧
    ∀ s ∈ g.shapes, (∃ node, ⟨s.identifier, sh.path, node⟩ ∈ triples) →
      s.isPropertyShape = true ∧ s.identifier ∉ g.declared := by
  have hloaded : g.Loaded := loaded_of_ofTriples hload
  obtain ⟨sightings, hread⟩ := readOff_of_ofTriples hload
  refine ⟨hloaded.distinct, fun s hs => ⟨fun t ht => ?_, hloaded.propertyShapes ⟨s, hs⟩⟩,
    fun t => ?_, ?_, fun t ht => ?_, fun s hs hpath => ?_⟩
  · exact member?_isSome.2 (hread.mem_identifiers_iff.2 (hread.refersToShape_of_mention hs ht))
  · simp only [hread.mem_identifiers_iff, TripleStore.mem_toList_ofList]
  · rw [hread.declared]
    exact (nodup_addAll List.nodup_nil _).filter _
  · obtain ⟨hmem, hpath⟩ := hread.mem_declared ht
    obtain ⟨s, hs⟩ := Option.isSome_iff_exists.1 (member?_isSome.2 hmem)
    refine ⟨s, hs, ?_⟩
    have hkind := isPropertyShape_of_ofStore (hread.ofStore_identifier s.2)
    rw [identifier_of_member? hs, hpath] at hkind
    simpa [Shape.isNodeShape, Shape.isPropertyShape] using hkind
  · have hobject : (TripleStore.object? (.ofList triples) s.identifier sh.path).isSome = true := by
      rw [(TripleStore.indexed_ofList triples).object?_isSome]
      simpa only [TripleStore.mem_toList_ofList] using hpath
    refine ⟨(isPropertyShape_of_ofStore (hread.ofStore_identifier hs)).trans hobject, ?_⟩
    intro hdeclared
    rw [(hread.mem_declared hdeclared).2] at hobject
    cases hobject

/-! Pets are cats or dogs, and what a dog has is declared to be a node shape although it
has a path. -/

/-- The statements about them. -/
def pets : List Triple :=
  [⟨.iri ⟨"pet"⟩, rdf.type, .iri sh.nodeShape⟩,
   ⟨.iri ⟨"pet"⟩, sh.exclusiveDisjunction, .blank "first"⟩,
   ⟨.blank "first", rdf.first, .iri ⟨"cat"⟩⟩,
   ⟨.blank "first", rdf.rest, .blank "second"⟩,
   ⟨.blank "second", rdf.first, .iri ⟨"dog"⟩⟩,
   ⟨.blank "second", rdf.rest, .iri rdf.nil⟩,
   ⟨.iri ⟨"dog"⟩, sh.property, .iri ⟨"bark"⟩⟩,
   ⟨.iri ⟨"bark"⟩, rdf.type, .iri sh.nodeShape⟩,
   ⟨.iri ⟨"bark"⟩, sh.path, .iri ⟨"sounds"⟩⟩]

theorem loaded_graph_closed_pets : ∃ g, ofTriples pets .empty = .ok g ∧
    g.identifiers.Nodup ∧ .iri ⟨"cat"⟩ ∈ g.identifiers ∧ .iri ⟨"bark"⟩ ∉ g.declared := by
  have hrun : (ofTriples pets .empty).toOption.isSome = true := by decide +kernel
  have hlist : TripleStore.IsCollection (.ofList pets) (.blank "first")
      [.iri ⟨"cat"⟩, .iri ⟨"dog"⟩] := by
    rw [← TripleStore.collection?_eq_some_iff]
    decide +kernel
  cases hload : ofTriples pets .empty with
  | error e => rw [hload] at hrun; cases hrun
  | ok g =>
    obtain ⟨hdistinct, -, hshapes, -, -, hpath⟩ := loaded_graph_closed hload
    have hcat : .iri ⟨"cat"⟩ ∈ g.identifiers :=
      (hshapes _).2 ⟨⟨.iri ⟨"pet"⟩, sh.exclusiveDisjunction, .blank "first"⟩, by decide,
        .member _ (by decide) hlist List.mem_cons_self⟩
    refine ⟨g, rfl, hdistinct, hcat, ?_⟩
    have hbark : .iri ⟨"bark"⟩ ∈ g.identifiers :=
      (hshapes _).2 ⟨⟨_, sh.path, .iri ⟨"sounds"⟩⟩, by decide, .path _ _⟩
    obtain ⟨s, hs, hidentifier⟩ := List.mem_map.1 hbark
    have hpaths : ∃ node, ⟨s.identifier, sh.path, node⟩ ∈ pets :=
      ⟨.iri ⟨"sounds"⟩, by rw [hidentifier]; decide⟩
    exact hidentifier ▸ (hpath s hs hpaths).2

end ShapesGraph

end ShaclTypes
