import Mathlib.Data.List.Infix
import ShaclTypes.Proofs.Sightings
set_option autoImplicit false

/-!
# Statements that are added

Whatever loading reads about a term, it reads off statements with this term as their
subject, and from there it goes on to objects of these statements.  So two stores that
answer alike on a region of terms, out of which no answer leads (`AgreeOn`), are read
alike there, reader by reader.

The terms that occur in some statements are such a region if statements about other
subjects are added, and what is collected in order of first appearance only grows at
the end.  The shapes that were loaded before are then loaded first, and unchanged
(`loading_stable`).
-/

namespace ShaclTypes

open ShaclTypes.Rdf ShaclTypes.Vocabulary ShaclTypes.Values

/-! ## Lists of readings -/

section Readings

variable {ε α β : Type}

/-- A list is read the same by readings that are the same on its elements. -/
theorem mapM_eq_of_forall_mem {f f' : α → Except ε β} {l : List α} (h : ∀ a ∈ l, f' a = f a) :
    l.mapM f' = l.mapM f := by
  induction l with
  | nil => rfl
  | cons a l ih =>
    rw [List.mapM_cons, List.mapM_cons, h a List.mem_cons_self,
      ih fun b hb => h b (List.mem_cons_of_mem a hb)]

/-- What begins a list that can be read is what begins the results. -/
theorem exists_prefix_of_mapM_eq_ok {f : α → Except ε β} {l l' : List α} {results : List β}
    (hbegin : l <+: l') (h : l'.mapM f = .ok results) :
    ∃ first, l.mapM f = .ok first ∧ first <+: results := by
  obtain ⟨rest, rfl⟩ := hbegin
  rw [List.mapM_append] at h
  obtain ⟨first, hfirst, hrest⟩ := bind_eq_ok.1 h
  obtain ⟨more, -, hboth⟩ := bind_eq_ok.1 hrest
  exact ⟨first, hfirst, more, Except.ok.inj hboth⟩

/-- What begins a list is met first. -/
theorem isPrefix_addAll [DecidableEq α] {l l' : List α} (h : l <+: l') :
    addAll [] l <+: addAll [] l' := by
  obtain ⟨rest, rfl⟩ := h
  rw [addAll_append]
  exact prefix_addAll _ rest

theorem forall_mem_addAll_flatMap [DecidableEq α] {p : α → Prop} {parts : β → List α} {l : List β}
    (h : ∀ b ∈ l, ∀ a ∈ parts b, p a) : ∀ a ∈ addAll [] (l.flatMap parts), p a := by
  intro a ha
  obtain ⟨b, hb, ha⟩ := List.mem_flatMap.1 ((mem_addAll.1 ha).resolve_left List.not_mem_nil)
  exact h b hb a ha

end Readings

/-! ## Stores that agree on a region -/

/-- On a region of terms the second store answers as the first does, and no answer leads
out of the region. -/
structure AgreeOn (region : Term → Prop) (s s' : TripleStore) : Prop where
  objects : ∀ t, region t → ∀ predicate, s'.objects t predicate = s.objects t predicate
  closed : ∀ t, region t → ∀ predicate, ∀ o ∈ s.objects t predicate, region o

namespace AgreeOn

variable {region : Term → Prop} {s s' : TripleStore} (h : AgreeOn region s s')
include h

theorem object? {t : Term} (ht : region t) (predicate : Iri) :
    s'.object? t predicate = s.object? t predicate := by
  rw [TripleStore.object?_eq_head?, h.objects t ht, TripleStore.object?_eq_head?]

theorem region_of_object? {t o : Term} {predicate : Iri} (ht : region t)
    (ho : s.object? t predicate = some o) : region o := by
  rw [TripleStore.object?_eq_head?] at ho
  exact h.closed t ht predicate o (List.mem_of_head? ho)

/-! ### Collections -/

theorem itemsFrom {visited : List Term} {cell : Term} (hcell : region cell) :
    s'.itemsFrom visited cell = s.itemsFrom visited cell := by
  induction visited, cell using TripleStore.itemsFrom.induct s with
  | case1 visited cell hnil =>
    rw [TripleStore.itemsFrom, if_pos hnil, TripleStore.itemsFrom, if_pos hnil]
  | case2 visited cell hinner hmem =>
    rw [TripleStore.itemsFrom, if_neg hinner, dif_pos hmem, TripleStore.itemsFrom, if_neg hinner,
      dif_pos hmem]
  | case3 visited cell hinner hfresh hfirst =>
    have hcell' : cell ≠ .iri rdf.nil := by simpa using hinner
    simp only [TripleStore.itemsFrom_inner hcell' hfresh, h.object? hcell, hfirst, Option.bind_none]
  | case4 visited cell hinner hfresh item hfirst hrest =>
    have hcell' : cell ≠ .iri rdf.nil := by simpa using hinner
    simp only [TripleStore.itemsFrom_inner hcell' hfresh, h.object? hcell, hfirst, hrest,
      Option.bind_some, Option.bind_none]
  | case5 visited cell hinner hfresh item hfirst next hrest ih =>
    have hcell' : cell ≠ .iri rdf.nil := by simpa using hinner
    simp only [TripleStore.itemsFrom_inner hcell' hfresh, h.object? hcell, hfirst, hrest,
      Option.bind_some, ih (h.region_of_object? hcell hrest)]

theorem items {head : Term} (hhead : region head) : items s' head = items s head := by
  simp only [Values.items, TripleStore.collection?, h.itemsFrom hhead]

/-- The items of a collection in the region are in the region. -/
theorem region_of_isCollection {head : Term} {list : List Term} (hlist : s.IsCollection head list)
    (hhead : region head) : ∀ item ∈ list, region item := by
  induction hlist with
  | nil => exact fun _ hitem => nomatch hitem
  | cons _ hfirst hrest _ ih =>
    exact List.forall_mem_cons.2
      ⟨h.region_of_object? hhead hfirst, ih (h.region_of_object? hhead hrest)⟩

/-- What is done with the items of a collection may rely on their being in the region. -/
theorem items_bind {α : Type} {head : Term} {f f' : List Term → Read α} (hhead : region head)
    (hf : ∀ list, (∀ item ∈ list, region item) → f' list = f list) :
    (Values.items s' head >>= f') = (Values.items s head >>= f) := by
  rw [h.items hhead]
  cases hitems : Values.items s head with
  | error e => rfl
  | ok list => exact hf list (h.region_of_isCollection (items_eq_ok.1 hitems) hhead)

end AgreeOn

/-! ### Paths -/

/-- A node that is no IRI and is not met again is read by its form. -/
theorem Path.ofNode_inner {s : TripleStore} {trail : List Term} {node : Term}
    (hinner : ∀ i, node = .iri i → False) (hfresh : node ∉ trail) :
    ofNode s trail node =
      match PathForm.ofNode? s node with
      | none => .error (.malformedPath node)
      | some .sequence => do
        return .sequence (← (← Values.items s node).mapM (ofNode s (node :: trail)))
      | some (.inverse inner) => do return .inverse (← ofNode s (node :: trail) inner)
      | some (.alternative head) => do
        return .alternative (← (← Values.items s head).mapM (ofNode s (node :: trail)))
      | some (.zeroOrMore inner) => do return .zeroOrMore (← ofNode s (node :: trail) inner)
      | some (.oneOrMore inner) => do return .oneOrMore (← ofNode s (node :: trail) inner)
      | some (.zeroOrOne inner) => do return .zeroOrOne (← ofNode s (node :: trail) inner) := by
  rw [ofNode, dif_neg hfresh]
  · split <;> next h => rw [h]
  · exact hinner

namespace AgreeOn

variable {region : Term → Prop} {s s' : TripleStore} (h : AgreeOn region s s')
include h

theorem form {node : Term} (hnode : region node) :
    PathForm.ofNode? s' node = PathForm.ofNode? s node := by
  simp only [PathForm.ofNode?, h.object? hnode]

/-- What the form of a node leads to is in the region. -/
theorem region_of_form {node : Term} (hnode : region node) {form : PathForm}
    (hform : PathForm.ofNode? s node = some form) :
    match form with
    | .sequence => True
    | .inverse inner | .alternative inner | .zeroOrMore inner | .oneOrMore inner
    | .zeroOrOne inner => region inner := by
  simp only [PathForm.ofNode?, Option.orElse_eq_orElse, Option.orElse_eq_or, Option.or_eq_some_iff,
    Option.map_eq_some_iff] at hform
  rcases hform with ⟨_, _, rfl⟩ | ⟨-, ⟨_, ho, rfl⟩ | ⟨-, ⟨_, ho, rfl⟩ | ⟨-, ⟨_, ho, rfl⟩ |
    ⟨-, ⟨_, ho, rfl⟩ | ⟨-, _, ho, rfl⟩⟩⟩⟩⟩
  · trivial
  all_goals exact h.region_of_object? hnode ho

theorem path {trail : List Term} {node : Term} (hnode : region node) :
    Path.ofNode s' trail node = Path.ofNode s trail node := by
  induction trail, node using Path.ofNode.induct s with
  | case1 trail i => simp only [Path.ofNode]
  | case2 trail node hinner hmem =>
    rw [Path.ofNode, dif_pos hmem, Path.ofNode, dif_pos hmem] <;> exact hinner
  | case3 trail node hinner hfresh hform =>
    simp only [Path.ofNode_inner hinner hfresh, h.form hnode, hform]
  | case4 trail node hinner hfresh hform ih =>
    simp only [Path.ofNode_inner hinner hfresh, h.form hnode, hform]
    refine h.items_bind hnode fun list hlist => ?_
    rw [mapM_eq_of_forall_mem fun step hstep => ih step (hlist step hstep)]
  | case6 trail node hinner hfresh head hform ih =>
    simp only [Path.ofNode_inner hinner hfresh, h.form hnode, hform]
    refine h.items_bind (h.region_of_form hnode hform) fun list hlist => ?_
    rw [mapM_eq_of_forall_mem fun step hstep => ih step (hlist step hstep)]
  | case5 trail node hinner hfresh inner hform ih | case7 trail node hinner hfresh inner hform ih
  | case8 trail node hinner hfresh inner hform ih | case9 trail node hinner hfresh inner hform ih =>
    simp only [Path.ofNode_inner hinner hfresh, h.form hnode, hform,
      ih (h.region_of_form hnode hform)]

/-! ### Shapes -/

section Readers

variable {α : Type} {t : Term} (ht : region t) (predicate : Iri)
include ht

theorem first? (read : Reader α) :
    Values.first? read s' t predicate = Values.first? read s t predicate := by
  simp only [Values.first?, h.object? ht]

theorem all (read : Reader α) :
    Values.all read s' t predicate = Values.all read s t predicate := by
  simp only [Values.all, h.objects t ht]

theorem members : Values.members s' t predicate = Values.members s t predicate := by
  simp only [Values.members, h.objects t ht,
    mapM_eq_of_forall_mem fun head hhead => h.items (h.closed t ht predicate head hhead)]

theorem membersOf (read : Reader α) :
    Values.membersOf read s' t predicate = Values.membersOf read s t predicate := by
  have hheads : ∀ head ∈ s.objects t predicate,
      (Values.items s' head >>= fun list => list.mapM (read t predicate)) =
        (Values.items s head >>= fun list => list.mapM (read t predicate)) :=
    fun head hhead => by rw [h.items (h.closed t ht predicate head hhead)]
  simp only [Values.membersOf, h.objects t ht, mapM_eq_of_forall_mem hheads]

end Readers

variable {t : Term} (ht : region t)
include ht

theorem bounds : Bounds.ofStore s' t = Bounds.ofStore s t := by
  simp only [Bounds.ofStore, h.first? ht]

theorem constraints : Constraints.ofStore s' t = Constraints.ofStore s t := by
  simp only [Constraints.ofStore, h.members ht, h.membersOf ht, h.all ht, h.first? ht,
    h.objects t ht, h.object? ht, h.bounds ht]

theorem annotations : Annotations.ofStore s' t = Annotations.ofStore s t := by
  simp only [Annotations.ofStore, Annotations.labelOfStore, h.first? ht, h.all ht]

theorem pathOfStore : Shape.pathOfStore s' t = Shape.pathOfStore s t := by
  unfold Shape.pathOfStore
  rw [h.object? ht]
  cases hpath : s.object? t sh.path with
  | none => rfl
  | some node => simp only [h.path (h.region_of_object? ht hpath)]

/-- A term in the region stands for the same shape in both stores. -/
theorem shape : Shape.ofStore s' t = Shape.ofStore s t := by
  simp only [Shape.ofStore, Shape.isClassIn, h.pathOfStore ht, h.all ht, h.constraints ht,
    h.annotations ht, h.objects t ht]

omit ht

/-! ### Sightings -/

theorem sighting {u : Triple} (hobject : region u.object) :
    Sighting.ofTriple s' u = Sighting.ofTriple s u := by
  simp only [Sighting.ofTriple, h.items hobject]

/-- A statement in the region shows only shapes in the region. -/
theorem region_of_sighting {u : Triple} {sighting : Sighting} (hsubject : region u.subject)
    (hobject : region u.object) (hsighting : Sighting.ofTriple s u = .ok sighting) :
    ∀ t ∈ sighting.shapes, region t := by
  intro t ht
  cases (mem_shapes_ofTriple hsighting).1 ht with
  | nodeShape | propertyShape | path | owner => exact hsubject
  | property | node => exact hobject
  | member _ _ hitems hmem => exact h.region_of_isCollection hitems hobject t hmem

end AgreeOn

/-! ## Additions -/

/-- The term is the subject or the object of one of the statements. -/
def Occurs (triples : List Triple) (t : Term) : Prop :=
  ∃ u ∈ triples, u.subject = t ∨ u.object = t

namespace Rdf.TripleStore

/-- Additions come after what is there. -/
theorem isPrefix_toList_ofList (triples more : List Triple) :
    (ofList triples).toList <+: (ofList (triples ++ more)).toList := by
  rw [toList_ofList, toList_ofList, List.eraseDups_append]
  exact List.prefix_append _ _

/-- Statements about other subjects change no answer about the terms that occur. -/
theorem agreeOn_occurs {triples more : List Triple}
    (hapart : ∀ u ∈ more, ¬ Occurs triples u.subject) :
    AgreeOn (Occurs triples) (ofList triples) (ofList (triples ++ more)) where
  objects t ht predicate := by
    have hnone : ((more.removeAll triples).eraseDups.filter fun u =>
        u.subject == t && u.predicate == predicate) = [] := by
      refine List.filter_eq_nil_iff.2 fun u hu => ?_
      have hmore : u ∈ more := (List.mem_filter.1 (List.mem_eraseDups.1 hu)).1
      have hne : u.subject ≠ t := fun heq => hapart u hmore (heq ▸ ht)
      simp [hne]
    rw [(indexed_ofList _).objects, (indexed_ofList _).objects, toList_ofList, toList_ofList,
      List.eraseDups_append, List.filter_append, hnone, List.append_nil]
  closed t _ predicate o ho := by
    have hmem := mem_toList_ofList.1 ((indexed_ofList _).mem_objects.1 ho)
    exact ⟨_, hmem, .inr rfl⟩

end Rdf.TripleStore

namespace ShapesGraph

open TripleStore

/-- The first pass over all statements begins with the first pass over those that were
there before, and what they show occurs in them. -/
theorem exists_sightings {triples more : List Triple} {sightings' : List Sighting}
    (hapart : ∀ u ∈ more, ¬ Occurs triples u.subject)
    (hscan : (ofList (triples ++ more)).toList.mapM
      (Sighting.ofTriple (ofList (triples ++ more))) = .ok sightings') :
    ∃ sightings, (ofList triples).toList.mapM (Sighting.ofTriple (ofList triples)) =
        .ok sightings ∧ sightings <+: sightings' ∧
      ∀ sighting ∈ sightings, (∀ t ∈ sighting.shapes, Occurs triples t) ∧
        ∀ t ∈ sighting.nodeShapes, Occurs triples t := by
  have hagree := agreeOn_occurs hapart
  have hsubject : ∀ u ∈ (ofList triples).toList, Occurs triples u.subject :=
    fun u hu => ⟨u, mem_toList_ofList.1 hu, .inl rfl⟩
  have hobject : ∀ u ∈ (ofList triples).toList, Occurs triples u.object :=
    fun u hu => ⟨u, mem_toList_ofList.1 hu, .inr rfl⟩
  obtain ⟨sightings, hfirst, hbegin⟩ :=
    exists_prefix_of_mapM_eq_ok (isPrefix_toList_ofList triples more) hscan
  rw [mapM_eq_of_forall_mem fun u hu => hagree.sighting (hobject u hu)] at hfirst
  refine ⟨sightings, hfirst, hbegin, fun sighting hsighting => ?_⟩
  obtain ⟨u, hu, hof⟩ := exists_source_of_mem hfirst hsighting
  have hshapes := hagree.region_of_sighting (hsubject u hu) (hobject u hu) hof
  exact ⟨hshapes, fun t ht => hshapes t (nodeShapes_subset_shapes hof ht)⟩

/-- If statements are added whose subjects do not occur among the others, and all
together can be loaded, then so can the others alone.  Their shapes are the first ones of
the larger graph, in the same order and with nothing changed, and their declared node
shapes are the first declared ones. -/
theorem loading_stable {triples more : List Triple} {prefixes : PrefixMap} {g' : ShapesGraph}
    (hapart : ∀ u ∈ more, ¬ Occurs triples u.subject)
    (h : ofTriples (triples ++ more) prefixes = .ok g') :
    ∃ g, ofTriples triples prefixes = .ok g ∧ g.shapes <+: g'.shapes ∧
      g.declared <+: g'.declared := by
  have hagree := agreeOn_occurs hapart
  obtain ⟨sightings', hread⟩ := readOff_of_ofTriples h
  obtain ⟨sightings, hscan, hsightings, hoccurs⟩ := exists_sightings hapart hread.scanned
  -- what is sighted occurs, so it is read as before
  have hshown := forall_mem_addAll_flatMap fun sighting hs => (hoccurs sighting hs).1
  have hdeclared := forall_mem_addAll_flatMap fun sighting hs => (hoccurs sighting hs).2
  have hfirst := isPrefix_addAll (List.IsPrefix.flatMap hsightings Sighting.shapes)
  obtain ⟨shapes, hshapes, hbegin⟩ := exists_prefix_of_mapM_eq_ok hfirst hread.shapes
  rw [mapM_eq_of_forall_mem fun t ht => hagree.shape (hshown t ht)] at hshapes
  refine ⟨_, bind_eq_ok.2 ⟨sightings, hscan, bind_eq_ok.2 ⟨shapes, hshapes, rfl⟩⟩, hbegin, ?_⟩
  dsimp only
  rw [hread.declared, List.filter_congr fun t ht => by rw [← hagree.object? (hdeclared t ht)]]
  exact (isPrefix_addAll (List.IsPrefix.flatMap hsightings Sighting.nodeShapes)).filter _

/-! To the statements about a garden, others are added that point into it: a park has the
same path for a property, and an estate is a garden. -/

/-- The statements about the garden. -/
def garden : List Triple :=
  [⟨.iri ⟨"garden"⟩, sh.property, .blank "walk"⟩,
   ⟨.blank "walk", sh.path, .iri ⟨"leads"⟩⟩,
   ⟨.blank "walk", sh.node, .iri ⟨"garden"⟩⟩]

/-- The statements about the park and the estate. -/
def grounds : List Triple :=
  [⟨.iri ⟨"park"⟩, sh.property, .blank "walk"⟩,
   ⟨.iri ⟨"estate"⟩, rdf.type, .iri sh.nodeShape⟩,
   ⟨.iri ⟨"estate"⟩, sh.node, .iri ⟨"garden"⟩⟩]

theorem loading_stable_garden : ∃ g g', (∀ u ∈ grounds, ¬ Occurs garden u.subject) ∧
    ofTriples (garden ++ grounds) .empty = .ok g' ∧ ofTriples garden .empty = .ok g ∧
    g.shapes <+: g'.shapes ∧ g.declared <+: g'.declared ∧
    g'.declared = [.iri ⟨"garden"⟩, .iri ⟨"park"⟩, .iri ⟨"estate"⟩] := by
  have hapart : ∀ u ∈ grounds, ¬ Occurs garden u.subject := by
    unfold Occurs
    decide
  have hrun : (ofTriples (garden ++ grounds) .empty).toOption.map ShapesGraph.declared =
      some [.iri ⟨"garden"⟩, .iri ⟨"park"⟩, .iri ⟨"estate"⟩] := by decide +kernel
  cases hload : ofTriples (garden ++ grounds) .empty with
  | error e => rw [hload] at hrun; cases hrun
  | ok g' =>
    rw [hload] at hrun
    obtain ⟨g, hg, hshapes, hdeclared⟩ := loading_stable hapart hload
    exact ⟨g, g', hapart, rfl, hg, hshapes, hdeclared, Option.some.inj hrun⟩

end ShapesGraph

end ShaclTypes
