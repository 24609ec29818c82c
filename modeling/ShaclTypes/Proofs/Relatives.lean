import ShaclTypes.Proofs.Kinship
import ShaclTypes.Proofs.LoadedGraph
import ShaclTypes.Proofs.Scanning
import ShaclTypes.Proofs.WholeGraph
set_option autoImplicit false

/-!
# Relatives of object types

The four lists of relatives of an object type are filled independently of each other
and of those of other object types, while some of the relatives are still unfinished.
Once everything is settled, they list what stands for the relatives of the shape
(`Mirrors.mem_kin`), and so the agreement between classes of a hierarchy is passed
on to shapes and from shapes to object types (`links_coherent`).
-/

namespace ShaclTypes

open ShaclTypes.Rdf ShaclTypes.Vocabulary

/-! ## Classes -/

/-- Among the statements is one that the term is a class. -/
def StatedClass (statements : List Triple) (t : Term) : Prop :=
  ∃ cls ∈ [rdfs.cls, owl.cls], ⟨t, rdf.type, .iri cls⟩ ∈ statements

theorem isClassIn_iff {s : TripleStore} (h : s.Indexed) {t : Term} :
    Shape.isClassIn s t = true ↔ StatedClass s.toList t := by
  simp only [Shape.isClassIn, List.any_eq_true, h.mem_objects, Bool.or_eq_true, Term.isIri_eq_true,
    StatedClass, List.mem_cons, List.not_mem_nil, or_false]
  constructor
  · rintro ⟨o, hmem, rfl | rfl⟩
    · exact ⟨_, .inl rfl, hmem⟩
    · exact ⟨_, .inr rfl, hmem⟩
  · rintro ⟨cls, rfl | rfl, hmem⟩
    · exact ⟨_, hmem, .inl rfl⟩
    · exact ⟨_, hmem, .inr rfl⟩

theorem isClass_of_ofStore {s : TripleStore} {t : Term} {shape : Shape}
    (h : Shape.ofStore s t = .ok shape) : shape.isClass = Shape.isClassIn s t := by
  simp only [Shape.ofStore, bind_eq_ok] at h
  obtain ⟨_, -, _, -, _, -, _, -, hshape⟩ := h
  obtain rfl := Except.ok.inj hshape
  rfl

/-! ## Relatives of shapes -/

namespace ShapesGraph

variable {g : ShapesGraph} {kinship : Kinship} {s : Shape}

theorem nodeShape?_eq_some {t : Term} {r : g.Member} :
    g.nodeShape? t = some r ↔ t ∈ g.declared ∧ g.member? t = some r := by
  simp [nodeShape?, isDeclared]

/-- The relatives of a shape are the declared classes that are related to its class. -/
theorem mem_relatives {r : g.Member} : r ∈ g.relatives kinship s ↔
    s.isClass = true ∧ r.1.isClass = true ∧ r.1.identifier ∈ g.declared ∧ Found r ∧
      r.1.identifier ∈ g.hierarchy.relatives kinship s.identifier := by
  unfold relatives
  split
  · next hs =>
    simp only [List.mem_filter, List.mem_filterMap, nodeShape?_eq_some, hs, true_and]
    constructor
    · rintro ⟨⟨t, ht, hdeclared, hmember⟩, hr⟩
      obtain rfl := identifier_of_member? hmember
      exact ⟨hr, hdeclared, hmember, ht⟩
    · rintro ⟨hr, hdeclared, hmember, ht⟩
      exact ⟨⟨_, ht, hdeclared, hmember⟩, hr⟩
  · next hs =>
    refine ⟨fun hmem => absurd hmem List.not_mem_nil, fun h => absurd h.1 hs⟩

theorem nodup_relatives (h : (g.hierarchy.relatives kinship s.identifier).Nodup) :
    (g.relatives kinship s).Nodup := by
  unfold relatives
  split
  · refine (h.filterMap fun t u r ht hu => ?_).filter _
    rw [← identifier_of_member? (nodeShape?_eq_some.1 ht).2]
    exact identifier_of_member? (nodeShape?_eq_some.1 hu).2
  · exact List.nodup_nil

/-- Shapes that are not hidden have slots of their own. -/
theorem slot_injective {r r' : g.Member} (hr : Found r) (hr' : Found r')
    (h : g.slot r = g.slot r') : r = r' := by
  have hnumber : g.number r.1.identifier = g.number r'.1.identifier := by
    unfold slot at h
    split at h <;> split at h <;> injections
  exact hr.ext hr' (number_inj r.mem_names hnumber)

end ShapesGraph

/-! ## Relatives of object types -/

theorem NodeType.object?_eq_some {type : NodeType} {id : ObjectId} :
    type.object? = some id ↔ type = .object id := by
  cases type <;> simp [NodeType.object?]

/-- The object types that an object type is related to in the given way. -/
def ObjectType.kin (o : ObjectType) : Kinship → List ObjectId
  | .parent => o.parents
  | .child => o.children
  | .ancestor => o.ancestors
  | .descendant => o.descendants

namespace Resolver

open ShapesGraph

variable {g : ShapesGraph} {settings : Settings} {s : State} {kinship : Kinship}

/-- The object type with the number is what the shape stands for. -/
def Represents (g : ShapesGraph) (m : TypeModel) (id : ObjectId) (r : g.Member) : Prop :=
  .object ((g.numbering m).object id) = g.slot r

/-- An object type represents one shape at most. -/
theorem Represents.unique {m : TypeModel} {id : ObjectId} {r r' : g.Member}
    (h : Represents g m id r) (h' : Represents g m id r') (hr : Found r) (hr' : Found r') :
    r = r' :=
  slot_injective hr hr' (h.symm.trans h')

/-- A shape is represented by one object type at most. -/
theorem Represents.injective {m : TypeModel} (hinj : (g.numbering m).Injective)
    {id id' : ObjectId} {r : g.Member} (h : Represents g m id r) (h' : Represents g m id' r) :
    id = id' :=
  hinj.object (NodeType.object.inj (h.trans h'.symm))

/-- The object type represents the shape, and its relatives are those of the shape. -/
structure Mirrors (g : ShapesGraph) (m : TypeModel) (id : ObjectId) (o : ObjectType)
    (r : g.Member) : Prop where
  found : Found r
  identifier : r.1.identifier = o.name.identifier
  represents : Represents g m id r
  kin : ∀ kinship, (o.kin kinship).map (g.numbering m).object = relativeSlots g kinship r.1

theorem AllSettled.exists_mirrors (h : AllSettled g settings s) {id : ObjectId} {o : ObjectType}
    (ho : s.model.object? id = some o) : ∃ r, Mirrors g s.model id o r := by
  obtain ⟨r, hsettled, hobject, hreads⟩ := h.of_object? ho
  have hidentifier := identifier_of_member? hsettled.member
  refine ⟨r, found_of_member? hsettled.member, hidentifier, ?_, fun kinship => ?_⟩
  · have hkind : (NodeType.object id).compositeKind? =
        r.1.constraints.nodeComposition?.map Prod.fst := by rw [hobject]; rfl
    refine renumber_eq_slot hkind ?_
    rw [hidentifier]
    exact TypeModel.owner?_of_object? ho
  · have hkin := congrArg (ObjectType.kin · kinship) hreads
    cases kinship <;> exact hkin

namespace Mirrors

variable {m : TypeModel} {x y z : ObjectId} {ox oy oz : ObjectType} {rx ry rz : g.Member}

/-- An object type is related to what represents the relatives of its shape. -/
theorem mem_kin (h : Mirrors g m x ox rx) (hinj : (g.numbering m).Injective) :
    y ∈ ox.kin kinship ↔ ∃ r ∈ g.relatives kinship rx.1, Represents g m y r := by
  rw [← List.mem_map_of_injective hinj.object, h.kin, relativeSlots, List.mem_filterMap]
  refine exists_congr fun r => and_congr_right fun _ => ?_
  rw [NodeType.object?_eq_some, Represents, eq_comm]

section Stated

variable (hx : Mirrors g m x ox rx) (hy : Mirrors g m y oy ry)
variable (hinj : (g.numbering m).Injective)
include hx hy hinj

theorem mem_kin_iff : y ∈ ox.kin kinship ↔ ry ∈ g.relatives kinship rx.1 := by
  rw [hx.mem_kin hinj]
  constructor
  · rintro ⟨r, hr, hrepresents⟩
    obtain rfl := hrepresents.unique hy.represents (found_of_mem_relatives hr) hy.found
    exact hr
  · exact fun hr => ⟨ry, hr, hy.represents⟩

/-- Object types are the same if their identifiers are. -/
theorem identifier_eq_iff : oy.name.identifier = ox.name.identifier ↔ y = x := by
  rw [← hx.identifier, ← hy.identifier]
  constructor
  · intro heq
    obtain rfl := hy.found.ext hx.found heq
    exact hy.represents.injective hinj hx.represents
  · rintro rfl
    rw [hy.represents.unique hx.represents hy.found hx.found]

/-- The relatives among the object types of declared shapes are the stated classes that the
hierarchy relates. -/
theorem mem_kin_iff_related {triples : List Triple} {sightings : List Sighting}
    (hread : ReadOff (.ofList triples) sightings g) (hdeclared : oy.name.identifier ∈ g.declared)
    (kinship : Kinship) : y ∈ ox.kin kinship ↔ StatedClass triples ox.name.identifier ∧
      StatedClass triples oy.name.identifier ∧ oy.name.identifier ∈
        (ClassHierarchy.ofStore (.ofList triples)).relatives kinship ox.name.identifier := by
  have hclass : ∀ r : g.Member, r.1.isClass = true ↔ StatedClass triples r.1.identifier := by
    intro r
    rw [isClass_of_ofStore (hread.ofStore_identifier r.2),
      isClassIn_iff (TripleStore.indexed_ofList triples)]
    simp only [StatedClass, TripleStore.mem_toList_ofList]
  rw [hx.mem_kin_iff hy hinj, mem_relatives, hclass, hclass, hread.hierarchy, hx.identifier,
    hy.identifier]
  refine and_congr_right fun _ => and_congr_right fun _ => ?_
  exact ⟨fun h => h.2.2, fun h => ⟨hdeclared, hy.found, h⟩⟩

/-- The parents and the ancestors are the other classes that are stated to be above. -/
theorem mem_stated {triples : List Triple} {sightings : List Sighting}
    (hread : ReadOff (.ofList triples) sightings g) (hdeclared : oy.name.identifier ∈ g.declared) :
    (y ∈ ox.parents ↔ StatedClass triples ox.name.identifier ∧
      StatedClass triples oy.name.identifier ∧ y ≠ x ∧
      StatedSubclass triples ox.name.identifier oy.name.identifier) ∧
    (y ∈ ox.ancestors ↔ StatedClass triples ox.name.identifier ∧
      StatedClass triples oy.name.identifier ∧ y ≠ x ∧
      Relation.TransGen (StatedSubclass triples) ox.name.identifier oy.name.identifier) := by
  have hstated : StatedSubclass (TripleStore.ofList triples).toList = StatedSubclass triples := by
    funext c d
    exact propext TripleStore.mem_toList_ofList
  have hne : oy.name.identifier ≠ ox.name.identifier ↔ y ≠ x :=
    not_congr (hx.identifier_eq_iff hy hinj)
  have hparent := hx.mem_kin_iff_related hy hinj hread hdeclared .parent
  have hancestor := hx.mem_kin_iff_related hy hinj hread hdeclared .ancestor
  rw [ClassHierarchy.mem_parents_ofStore, hne, hstated] at hparent
  rw [ClassHierarchy.mem_ancestors_ofStore, hne, hstated] at hancestor
  exact ⟨hparent, hancestor⟩

end Stated

section Coherent

variable (hx : Mirrors g m x ox rx) (hinj : (g.numbering m).Injective)
variable (hcoherent : g.hierarchy.Coherent)
include hx hinj hcoherent

/-- An object type of a declared shape is among the relatives of its relatives. -/
theorem converse (kinship : Kinship) (hy : Mirrors g m y oy ry)
    (hdeclared : ox.name.identifier ∈ g.declared) (h : y ∈ ox.kin kinship) :
    x ∈ oy.kin kinship.converse := by
  rw [hx.mem_kin_iff hy hinj, mem_relatives] at h
  obtain ⟨hclass, hclass', -, -, hrelated⟩ := h
  rw [hy.mem_kin_iff hx hinj, mem_relatives]
  exact ⟨hclass', hclass, hx.identifier ▸ hdeclared, hx.found,
    hcoherent.converse kinship _ _ hrelated⟩

/-- Relatives that are one step away are relatives through any number of steps. -/
theorem kin_subset (kinship : Kinship) : ox.kin kinship ⊆ ox.kin kinship.transitive := by
  intro y hy
  obtain ⟨r, hr, hrepresents⟩ := (hx.mem_kin hinj).1 hy
  obtain ⟨hclass, hclass', hdeclared, hfound, hrelated⟩ := mem_relatives.1 hr
  exact (hx.mem_kin hinj).2 ⟨r, mem_relatives.2 ⟨hclass, hclass', hdeclared, hfound,
    hcoherent.direct kinship _ _ hrelated⟩, hrepresents⟩

/-- Relatives of relatives are relatives, except for the object type itself. -/
theorem trans (kinship : Kinship) (hy : Mirrors g m y oy ry)
    (hxy : y ∈ ox.kin kinship.transitive) (hyz : z ∈ oy.kin kinship.transitive) (hne : z ≠ x) :
    z ∈ ox.kin kinship.transitive := by
  obtain ⟨hclass, -, -, -, hrelated⟩ := mem_relatives.1 ((hx.mem_kin_iff hy hinj).1 hxy)
  obtain ⟨r, hr, hrepresents⟩ := (hy.mem_kin hinj).1 hyz
  obtain ⟨-, hclass', hdeclared, hfound, hrelated'⟩ := mem_relatives.1 hr
  have hdifferent : r.1.identifier ≠ rx.1.identifier := by
    intro heq
    obtain rfl := hfound.ext hx.found heq
    exact hne (hrepresents.injective hinj hx.represents)
  exact (hx.mem_kin hinj).2 ⟨r, mem_relatives.2 ⟨hclass, hclass', hdeclared, hfound,
    hcoherent.trans kinship _ _ _ hrelated hrelated' hdifferent⟩, hrepresents⟩

/-- No object type is related to itself. -/
theorem irrefl (kinship : Kinship) : x ∉ ox.kin kinship := by
  rw [hx.mem_kin_iff hx hinj, mem_relatives]
  exact fun h => hcoherent.irrefl kinship _ h.2.2.2.2

omit hinj in
/-- No object type is listed twice. -/
theorem nodup_kin (kinship : Kinship) : (ox.kin kinship).Nodup := by
  refine List.Nodup.of_map (g.numbering m).object ?_
  rw [hx.kin, relativeSlots, List.Nodup, List.pairwise_filterMap]
  -- slots differ for the shapes that are related only, since others may be hidden
  have hnodup : (g.relatives kinship rx.1).Nodup := nodup_relatives (hcoherent.distinct kinship _)
  refine hnodup.imp_of_mem fun hr hr' hne id hid id' hid' heq => hne ?_
  refine slot_injective (found_of_mem_relatives hr) (found_of_mem_relatives hr') ?_
  rw [NodeType.object?_eq_some.1 hid, NodeType.object?_eq_some.1 hid', heq]

end Coherent

end Mirrors

/-- The links between the object types of a loaded graph agree with each other.  Those of
declared node shapes are parents and children, and ancestors and descendants, of each
other, and the parents and ancestors are just the other classes that the statements put
above; parents are ancestors; ancestors of ancestors are ancestors, except for the
object type itself; and no list has the object type itself, or another one twice. -/
theorem links_coherent {triples : List Triple} {prefixes : PrefixMap} {g : ShapesGraph}
    {settings : Settings} {m : TypeModel} (hload : ofTriples triples prefixes = .ok g)
    (hok : (resolveGraph g settings).1 = .ok m) :
    (∀ x y ox oy, m.object? x = some ox → m.object? y = some oy →
      ox.name.identifier ∈ g.declared → oy.name.identifier ∈ g.declared →
      (y ∈ ox.parents ↔ x ∈ oy.children) ∧ (y ∈ ox.ancestors ↔ x ∈ oy.descendants) ∧
      (y ∈ ox.parents ↔ StatedClass triples ox.name.identifier ∧
        StatedClass triples oy.name.identifier ∧ y ≠ x ∧
        StatedSubclass triples ox.name.identifier oy.name.identifier) ∧
      (y ∈ ox.ancestors ↔ StatedClass triples ox.name.identifier ∧
        StatedClass triples oy.name.identifier ∧ y ≠ x ∧
        Relation.TransGen (StatedSubclass triples) ox.name.identifier oy.name.identifier) ∧
      ∀ z, y ∈ ox.ancestors → z ∈ oy.ancestors → z ≠ x → z ∈ ox.ancestors) ∧
    ∀ x ox, m.object? x = some ox → ox.parents ⊆ ox.ancestors ∧
      ∀ list ∈ [ox.parents, ox.children, ox.ancestors, ox.descendants], x ∉ list ∧ list.Nodup := by
  obtain ⟨sightings, hread⟩ := readOff_of_ofTriples hload
  have hcoherent : g.hierarchy.Coherent := hread.hierarchy ▸ ClassHierarchy.coherent_ofStore _
  have hspec := ensures_resolveAll g settings
  cases hrun : outcome (resolveAll g settings) .empty with
  | mk result s =>
    rw [resolveGraph, hrun] at hok
    obtain rfl : result = .ok m := hok
    obtain ⟨rfl, hsettled, -⟩ := hspec.ok rfl hrun
    have hinj : (g.numbering s.model).Injective := numbering_injective hsettled.sound
    refine ⟨fun x y ox oy hox hoy hdeclared hdeclared' => ?_, fun x ox hox => ?_⟩
    · obtain ⟨rx, hx⟩ := hsettled.exists_mirrors hox
      obtain ⟨ry, hy⟩ := hsettled.exists_mirrors hoy
      have hthere := fun kinship => hx.converse hinj hcoherent kinship hy hdeclared
      have hback := fun kinship => hy.converse hinj hcoherent kinship hx hdeclared'
      obtain ⟨hparents, hancestors⟩ := hx.mem_stated hy hinj hread hdeclared'
      exact ⟨⟨hthere .parent, hback .child⟩, ⟨hthere .ancestor, hback .descendant⟩, hparents,
        hancestors, fun z => hx.trans hinj hcoherent .ancestor hy⟩
    · obtain ⟨rx, hx⟩ := hsettled.exists_mirrors hox
      have hlist : ∀ kinship, x ∉ ox.kin kinship ∧ (ox.kin kinship).Nodup := fun kinship =>
        ⟨hx.irrefl hinj hcoherent kinship, hx.nodup_kin hcoherent kinship⟩
      refine ⟨hx.kin_subset hinj hcoherent .parent, ?_⟩
      simp only [List.forall_mem_cons]
      exact ⟨hlist .parent, hlist .child, hlist .ancestor, hlist .descendant, by simp⟩

/-! Cats are pets by way of a class that is not a shape, and pets are cats. -/

/-- The statements about them. -/
def household : List Triple :=
  [⟨.iri ⟨"cat"⟩, rdf.type, .iri sh.nodeShape⟩,
   ⟨.iri ⟨"cat"⟩, rdf.type, .iri rdfs.cls⟩,
   ⟨.iri ⟨"cat"⟩, rdfs.subClassOf, .iri ⟨"felid"⟩⟩,
   ⟨.iri ⟨"felid"⟩, rdfs.subClassOf, .iri ⟨"pet"⟩⟩,
   ⟨.iri ⟨"pet"⟩, rdf.type, .iri sh.nodeShape⟩,
   ⟨.iri ⟨"pet"⟩, rdf.type, .iri rdfs.cls⟩,
   ⟨.iri ⟨"pet"⟩, rdfs.subClassOf, .iri ⟨"cat"⟩⟩]

theorem links_coherent_household : ∃ g m cat pet, ofTriples household .empty = .ok g ∧
    (resolveGraph g .standard).1 = .ok m ∧ m.object? ⟨0⟩ = some cat ∧ m.object? ⟨1⟩ = some pet ∧
    ⟨1⟩ ∈ cat.ancestors ∧ ⟨1⟩ ∉ cat.parents ∧ ⟨0⟩ ∈ pet.descendants ∧ ⟨0⟩ ∉ pet.children ∧
    cat.ancestors.Nodup := by
  have hrun : ((ofTriples household .empty).toOption.bind fun g =>
      (resolveGraph g .standard).1.toOption.map fun m => (g.declared,
        m.objects.map fun o => (o.name.identifier, o.parents, o.ancestors))) =
      some ([.iri ⟨"cat"⟩, .iri ⟨"pet"⟩],
        [(.iri ⟨"cat"⟩, [], [⟨1⟩]), (.iri ⟨"pet"⟩, [⟨0⟩], [⟨0⟩])]) := by decide +kernel
  cases hload : ofTriples household .empty with
  | error e => rw [hload] at hrun; cases hrun
  | ok g =>
    cases hok : (resolveGraph g .standard).1 with
    | error e => rw [hload] at hrun; simp [Except.toOption, hok] at hrun
    | ok m =>
      simp only [hload, hok, Except.toOption, Option.bind_some, Option.map_some, Option.some.injEq,
        Prod.mk.injEq] at hrun
      obtain ⟨hdeclared, hobjects⟩ := hrun
      obtain ⟨cat, rest, hm, hcat, hrest⟩ := List.map_eq_cons_iff.1 hobjects
      obtain ⟨pet, others, rfl, hpet, -⟩ := List.map_eq_cons_iff.1 hrest
      simp only [Prod.mk.injEq] at hcat hpet
      obtain ⟨hboth, heach⟩ := links_coherent hload hok
      have hcat' : m.object? ⟨0⟩ = some cat := by rw [TypeModel.object?, hm]; rfl
      have hpet' : m.object? ⟨1⟩ = some pet := by rw [TypeModel.object?, hm]; rfl
      obtain ⟨hparent, hancestor, -, hstated, -⟩ := hboth _ _ _ _ hcat' hpet'
        (by simp [hcat, hdeclared]) (by simp [hpet, hdeclared])
      have hfelid : StatedSubclass household (.iri ⟨"cat"⟩) (.iri ⟨"felid"⟩) := by
        unfold StatedSubclass
        decide
      have hpets : StatedSubclass household (.iri ⟨"felid"⟩) (.iri ⟨"pet"⟩) := by
        unfold StatedSubclass
        decide
      have habove : ⟨1⟩ ∈ cat.ancestors := by
        rw [hstated, hcat.1, hpet.1]
        exact ⟨⟨rdfs.cls, by decide, by decide⟩, ⟨rdfs.cls, by decide, by decide⟩, by decide,
          .tail (.single hfelid) hpets⟩
      have hindirect : ⟨1⟩ ∉ cat.parents := by simp [hcat]
      exact ⟨g, m, cat, pet, rfl, hok, hcat', hpet', habove, hindirect, hancestor.1 habove,
        fun hchild => hindirect (hparent.2 hchild), ((heach _ _ hcat').2 _ (by simp)).2⟩

end Resolver

end ShaclTypes
