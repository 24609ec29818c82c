import ShaclTypes.Proofs.Integrity
import ShaclTypes.Proofs.ListCells
import ShaclTypes.Proofs.LoadedGraph
import ShaclTypes.Proofs.Reporting
set_option autoImplicit false

/-!
# Kinds of identifiers

An identifier is an IRI or a blank node.  Of the ways in which an identifier type comes
by its kinds all but one leave literals out: kinds that are read off values, those of
external object types, and the union of such.  The exception are the node kinds of a
shape whose values, the default value in force among them, are what makes it an
identifier (`ScalarEvidence.Mixed`); they are taken over as they are.

Where the kinds come from is told by the shapes that a property is assembled from.
`identifier_kinds` says of an identifier type in a model which of them it is the type of,
and that it has literals exactly if that shape is mixed or one of its inline members is.
`literal_identifier` says that this does occur.
-/

namespace ShaclTypes

open ShaclTypes.Rdf ShaclTypes.Vocabulary

namespace NodeKinds

theorem isEmpty_eq_false_of_mem {kinds : NodeKinds} {k : NodeKind} (h : k ∈ kinds) :
    kinds.isEmpty = false := by
  by_contra hempty
  exact isEmpty_eq_true.1 (by simpa using hempty) k h

theorem exists_mem {kinds : NodeKinds} (h : kinds.isEmpty = false) : ∃ k, k ∈ kinds := by
  by_contra hnone
  rw [isEmpty_eq_true.2 (not_exists.1 hnone)] at h
  cases h

theorem isEmpty_unions {sets : List NodeKinds} (hne : sets ≠ [])
    (h : ∀ kinds ∈ sets, kinds.isEmpty = false) : (unions sets).isEmpty = false := by
  obtain ⟨kinds, hkinds⟩ := List.exists_mem_of_ne_nil sets hne
  obtain ⟨k, hk⟩ := exists_mem (h kinds hkinds)
  exact isEmpty_eq_false_of_mem (mem_unions.2 ⟨kinds, hkinds, hk⟩)

/-- There are kinds, and literals are not among them. -/
def Identifying (kinds : NodeKinds) : Prop := kinds.isEmpty = false ∧ NodeKind.literal ∉ kinds

end NodeKinds

/-! ## The scalar rule -/

namespace ScalarEvidence

/-- The node kinds allow literals, and yet the values describe an identifier. -/
def Mixed (x : ScalarEvidence) : Prop :=
  NodeKind.literal ∈ x.constraints.nodeKinds ∧ x.isLiteral = false ∧
    x.allValues Term.isIdentifier = true

/-- Kinds that are read off values are not without any, and not literals. -/
theorem inferredKinds_spec (x : ScalarEvidence) :
    x.inferredKinds.Identifying := by
  unfold inferredKinds
  dsimp only
  split
  · exact ⟨rfl, by decide⟩
  · next hne =>
    refine ⟨by simpa using hne, fun hliteral => ?_⟩
    obtain ⟨set, hset, hmem⟩ := NodeKinds.mem_unions.1 hliteral
    obtain ⟨kind, hkind, rfl⟩ := List.mem_map.1 hset
    obtain rfl := NodeKinds.mem_single.1 hmem
    obtain ⟨value, hvalue, hliteral⟩ := List.mem_map.1 hkind
    have hidentifier := (List.mem_filter.1 hvalue).2
    cases value with
    | literal l => cases hidentifier
    | iri i => cases hliteral
    | blank b => cases hliteral

/-- What is typed as an identifier has kinds, and literals are among them exactly if the
evidence is mixed. -/
theorem identifierType_spec {x : ScalarEvidence} (hliteral : x.isLiteral = false)
    (hidentifier : x.isIdentifier = true) :
    x.identifierType.kinds.isEmpty = false ∧
      (NodeKind.literal ∈ x.identifierType.kinds ↔ x.Mixed) := by
  unfold identifierType
  dsimp only
  split
  · next hempty =>
    refine ⟨x.inferredKinds_spec.1, iff_of_false x.inferredKinds_spec.2 fun hmixed => ?_⟩
    exact NodeKinds.isEmpty_eq_true.1 hempty _ hmixed.1
  · next hne =>
    refine ⟨by simpa using hne, fun hmem => ⟨hmem, hliteral, ?_⟩, fun hmixed => hmixed.1⟩
    have hflag : x.constraints.nodeKinds.literal = true := hmem
    simpa [isIdentifier, hflag] using hidentifier

/-- A scalar type that is an identifier is the one of the evidence, which does not describe
a literal. -/
theorem scalarType?_eq_identifier {x : ScalarEvidence} {t : IdentifierType} :
    scalarType? x = some (.identifier t) ↔
      x.isLiteral = false ∧ x.isIdentifier = true ∧ t = x.identifierType := by
  unfold scalarType? ScalarRule.all
  cases hliteral : x.isLiteral <;> cases hidentifier : x.isIdentifier <;>
    simp [ScalarRule.applies, ScalarRule.type, hliteral, hidentifier, eq_comm]

/-- Mixed evidence makes an identifier, with literals among its kinds. -/
theorem Mixed.scalarType? {x : ScalarEvidence} (h : x.Mixed) :
    ShaclTypes.scalarType? x = some (.identifier x.identifierType) ∧
      NodeKind.literal ∈ x.identifierType.kinds := by
  obtain ⟨hmem, hliteral, hvalues⟩ := h
  have hidentifier : x.isIdentifier = true := by simp [isIdentifier, hvalues]
  exact ⟨scalarType?_eq_identifier.2 ⟨hliteral, hidentifier, rfl⟩,
    (identifierType_spec hliteral hidentifier).2.2 ⟨hmem, hliteral, hvalues⟩⟩

end ScalarEvidence

/-! ## Identifiers in types -/

/-- The identifier types in a type, at any depth. -/
def ValueType.identifierTypes (v : ValueType) : List IdentifierType :=
  v.leaves.filterMap fun leaf =>
    match leaf with
    | identifier t => some t
    | _ => none

/-- The identifier types in the types of properties and of list items. -/
def TypeModel.identifierTypes (m : TypeModel) : List IdentifierType :=
  m.objects.flatMap fun o =>
    o.properties.flatMap (fun p => p.type.identifierTypes) ++
      o.listItemType.toList.flatMap ValueType.identifierTypes

namespace ValueType

variable {v : ValueType} {t : IdentifierType}

theorem identifierTypes_wrap (c : Cardinality) (item : ValueType) :
    (c.wrap item).identifierTypes = item.identifierTypes := by
  rw [identifierTypes, leaves_wrap, identifierTypes]

theorem mem_identifierTypes : t ∈ v.identifierTypes ↔ .identifier t ∈ v.leaves := by
  unfold identifierTypes
  rw [List.mem_filterMap]
  constructor
  · rintro ⟨leaf, hleaf, ht⟩
    cases leaf with
    | identifier t' => exact Option.some.inj ht ▸ hleaf
    | literal | composite | set | option | object | objectComposite => cases ht
  · exact fun h => ⟨_, h, rfl⟩

theorem identifierTypes_of_withoutCardinality (h : v.withoutCardinality = .identifier t) :
    v.identifierTypes = [t] := by
  rw [identifierTypes, ← leaves_withoutCardinality, h]
  rfl

/-- When members collapse, the identifiers in them are kept, or else all members are
identifiers and become one of all their kinds. -/
theorem identifierTypes_collapse {kind : CompositeKind} {hasFixedValue : Bool}
    {members : List ValueType} (h : collapse kind hasFixedValue members = .ok v) :
    v.identifierTypes = members.flatMap identifierTypes ∨
      ∃ types : List IdentifierType, types ≠ [] ∧ members = types.map identifier ∧
        v = identifier { kinds := .unions (types.map IdentifierType.kinds) } := by
  rcases collapse_cases h with rfl | hshortcut | rfl
  · exact .inl (by simp)
  · refine (shortcut?_cases hshortcut).imp_left fun hgeneric => ?_
    obtain ⟨rfl, hmembers⟩ := hgeneric
    refine (List.flatMap_eq_nil_iff.2 fun member hmember => ?_).symm
    obtain ⟨type, hunder, -⟩ := hmembers member hmember
    rw [identifierTypes, ← leaves_withoutCardinality, hunder]
    rfl
  · refine .inl ?_
    rw [identifierTypes, leaves, leavesList_eq_flatMap, List.filterMap_flatMap]
    rfl

end ValueType

/-! ## Where a type comes from -/

namespace ShapesGraph

/-- From a shape under the settings around it one comes to the shape itself and, by way of
its inline members, to whatever these come to under the settings within the shape. -/
inductive ComesTo (g : ShapesGraph) : Inherited → g.Member → Inherited → g.Member → Prop
  | refl {inherited : Inherited} {shape : g.Member} : ComesTo g inherited shape inherited shape
  | step {inherited inherited' : Inherited} {shape r shape' : g.Member}
      (hr : g.Inlines shape r) (hrest : ComesTo g (inherited.within shape.1) r inherited' shape') :
      ComesTo g inherited shape inherited' shape'

variable {g : ShapesGraph} {shape r q : g.Member} {i j k : Inherited}

theorem ComesTo.trans (h : g.ComesTo i shape j r) (h' : g.ComesTo j r k q) :
    g.ComesTo i shape k q := by
  induction h with
  | refl => exact h'
  | step hr _ ih => exact .step hr (ih h')

/-- A shape, or an inline shape that it comes to, is typed by its own constraints and the
default value in force there, and they are mixed. -/
def Mixes (g : ShapesGraph) (inherited : Inherited) (shape : g.Member) : Prop :=
  ∃ inherited' r, g.ComesTo inherited shape inherited' r ∧
    r.1.constraints.composition? = none ∧
    ScalarEvidence.Mixed ⟨r.1.constraints, (inherited'.within r.1).defaultValue⟩

theorem Mixes.of_comesTo (h : g.ComesTo i shape j r) (hmixes : g.Mixes j r) : g.Mixes i shape := by
  obtain ⟨inherited', r', hr', hscalar, hmixed⟩ := hmixes
  exact ⟨inherited', r', h.trans hr', hscalar, hmixed⟩

end ShapesGraph

namespace TypeModel

/-- The type is a reference to an entry of the model. -/
def IsReference (m : TypeModel) (v : ValueType) : Prop :=
  ∃ context type, m.extent.holds type = true ∧ v = m.referenceType context type

/-- Under the settings around it, and referring to entries of the model, a shape is typed
as an identifier, whatever its cardinality. -/
def TypesAs (m : TypeModel) (g : ShapesGraph) (inherited : Inherited) (shape : g.Member)
    (t : IdentifierType) : Prop :=
  ∃ v introductions, Assembled g inherited shape v introductions ∧
    (∀ i ∈ introductions, m.IsReference i.type) ∧ v.withoutCardinality = .identifier t

/-- A reference to an entry stays what it is while the model grows. -/
theorem Grows.referenceType {m m' : TypeModel} (h : m.Grows m') {type : NodeType}
    (hheld : m.extent.holds type = true) (context : Inherited) :
    m'.referenceType context type = m.referenceType context type := by
  cases type with
  | composite kind id => rfl
  | object id =>
    obtain ⟨owner, howner⟩ := holds_iff_owner.1 hheld
    obtain ⟨o, ho, -⟩ := Option.map_eq_some_iff.1 howner
    simp only [TypeModel.referenceType, ho, h.object? ho]

theorem IsReference.grows {m m' : TypeModel} {v : ValueType} (h : m.IsReference v)
    (hgrows : m.Grows m') : m'.IsReference v := by
  obtain ⟨context, type, hheld, rfl⟩ := h
  exact ⟨context, type, hgrows.holds hheld, (hgrows.referenceType hheld context).symm⟩

/-- A reference is an identifier only for an external object type, and of its kinds. -/
theorem IsReference.exists_object {m : TypeModel} {v : ValueType} (h : m.IsReference v)
    {t : IdentifierType} (ht : t ∈ v.identifierTypes) : ∃ o ∈ m.objects, t.kinds = o.kinds := by
  obtain ⟨context, type, -, rfl⟩ := h
  cases type with
  | composite kind id => cases ht
  | object id =>
    simp only [TypeModel.referenceType] at ht
    split at ht
    · next o ho =>
      obtain rfl := List.mem_singleton.1 ht
      exact ⟨o, List.mem_of_getElem? (Option.filter_eq_some_iff.1 ho).1, rfl⟩
    · cases ht

end TypeModel

/-! ## The kinds of assembled types -/

namespace TypeModel

/-- The identifier type has kinds.  If literals are among them, then the shape comes to one
which is typed as this identifier and which comes to a mixed shape. -/
structure Traces (m : TypeModel) (g : ShapesGraph) (inherited : Inherited) (shape : g.Member)
    (t : IdentifierType) : Prop where
  nonempty : t.kinds.isEmpty = false
  source : NodeKind.literal ∈ t.kinds → ∃ inherited' r, g.ComesTo inherited shape inherited' r ∧
    m.TypesAs g inherited' r t ∧ g.Mixes inherited' r

variable {m : TypeModel} {g : ShapesGraph} {inherited : Inherited} {shape r : g.Member}
variable {t : IdentifierType}

/-- What is traced from an inline member is traced from the shape. -/
theorem Traces.of_inlines (h : m.Traces g (inherited.within shape.1) r t)
    (hr : g.Inlines shape r) : m.Traces g inherited shape t where
  nonempty := h.nonempty
  source hliteral := by
    obtain ⟨inherited', r', hr', hsource⟩ := h.source hliteral
    exact ⟨inherited', r', .step hr hr', hsource⟩

/-- What is traced from a shape that is typed as an identifier of kinds from such types. -/
theorem traces_unions {types : List IdentifierType} (hne : types ≠ [])
    (h : ∀ t ∈ types, m.Traces g inherited shape t)
    (htyped : m.TypesAs g inherited shape { kinds := .unions (types.map IdentifierType.kinds) }) :
    m.Traces g inherited shape { kinds := .unions (types.map IdentifierType.kinds) } where
  nonempty := by
    refine NodeKinds.isEmpty_unions (by simpa using hne) ?_
    exact List.forall_mem_map.2 fun t ht => (h t ht).nonempty
  source hliteral := by
    obtain ⟨kinds, hkinds, hmem⟩ := NodeKinds.mem_unions.1 hliteral
    obtain ⟨t, ht, rfl⟩ := List.mem_map.1 hkinds
    obtain ⟨inherited', r, hr, -, hmixes⟩ := (h t ht).source hmem
    exact ⟨inherited, shape, .refl, htyped, .of_comesTo hr hmixes⟩

/-- A reference to an entry traces to nothing, if no entry has literals among its kinds. -/
theorem IsReference.traces {v : ValueType} (h : m.IsReference v)
    (hkinds : ∀ o ∈ m.objects, o.kinds.Identifying) (ht : t ∈ v.identifierTypes) :
    m.Traces g inherited shape t := by
  obtain ⟨o, ho, heq⟩ := h.exists_object ht
  have hidentifying : t.kinds.Identifying := heq ▸ hkinds o ho
  exact ⟨hidentifying.1, fun hliteral => absurd hliteral hidentifying.2⟩

end TypeModel

namespace Assembled

variable {g : ShapesGraph} {m : TypeModel} {inherited : Inherited} {shape : g.Member}
variable {v : ValueType} {introductions : List (Introduction g)}

/-- The identifier types that are assembled can be traced. -/
theorem traces (hkinds : ∀ o ∈ m.objects, o.kinds.Identifying)
    (h : Assembled g inherited shape v introductions)
    (hreferences : ∀ i ∈ introductions, m.IsReference i.type) :
    ∀ t ∈ v.identifierTypes, m.Traces g inherited shape t := by
  induction h with
  | @scalar inherited shape item hcomposition hitem =>
    intro t ht
    rw [ValueType.identifierTypes_wrap, ValueType.mem_identifierTypes,
      leaves_of_scalarType? hitem, List.mem_singleton] at ht
    subst ht
    obtain ⟨hliteral, hidentifier, rfl⟩ := ScalarEvidence.scalarType?_eq_identifier.1 hitem
    obtain ⟨hne, hmixed⟩ := ScalarEvidence.identifierType_spec hliteral hidentifier
    refine ⟨hne, fun hmem => ⟨inherited, shape, .refl, ?_, ?_⟩⟩
    · exact ⟨_, [], .scalar hcomposition hitem, fun _ hi => (nomatch hi),
        Cardinality.withoutCardinality_wrap _ _⟩
    · exact ⟨inherited, shape, .refl, hcomposition, hmixed.1 hmem⟩
  | @composed inherited shape composition item parts hcomposition hlisted hreference hinline hitem
      ih =>
    have hparts : ∀ part ∈ parts, ∀ t ∈ part.type.identifierTypes,
        m.Traces g inherited shape t := by
      intro part hpart t ht
      have hpart' : ∀ i ∈ part.introductions shape, m.IsReference i.type := fun i hi =>
        hreferences i (List.mem_flatMap.2 ⟨part, hpart, hi⟩)
      cases part with
      | reference type => exact (hpart' _ List.mem_cons_self).traces hkinds ht
      | inline r type is =>
        refine (ih r type is hpart (fun i hi => ?_) t ht).of_inlines
          (inlines_of_mem_parts hcomposition hlisted hpart)
        exact hpart' ⟨shape :: i.way, i.type⟩ (List.mem_map.2 ⟨i, hi, rfl⟩)
    intro t ht
    rw [ValueType.identifierTypes_wrap] at ht
    rcases ValueType.identifierTypes_collapse hitem with hkept | ⟨types, hne, htypes, rfl⟩
    · rw [hkept, List.flatMap_map] at ht
      obtain ⟨part, hpart, ht⟩ := List.mem_flatMap.1 ht
      exact hparts part hpart t ht
    · -- all parts are identifiers, and the type is one of all their kinds
      obtain rfl := List.mem_singleton.1 ht
      refine TypeModel.traces_unions hne (fun t' ht' => ?_) ⟨_, _,
        .composed hcomposition hlisted hreference hinline hitem, hreferences,
        Cardinality.withoutCardinality_wrap _ _⟩
      have hmem : ValueType.identifier t' ∈ parts.map Part.type :=
        htypes ▸ List.mem_map_of_mem ht'
      obtain ⟨part, hpart, htype⟩ := List.mem_map.1 hmem
      exact hparts part hpart t' (htype ▸ List.mem_singleton_self t')

/-- A mixed shape, wherever one comes to it, leaves its mark. -/
theorem exists_literal (h : Assembled g inherited shape v introductions)
    (hmixes : g.Mixes inherited shape) :
    ∃ t ∈ v.identifierTypes, NodeKind.literal ∈ t.kinds := by
  obtain ⟨inherited', r, hr, hscalar, hmixed⟩ := hmixes
  induction hr generalizing v introductions with
  | refl =>
    obtain ⟨hitem', hliteral⟩ := hmixed.scalarType?
    cases h with
    | scalar _ hitem =>
      obtain rfl := Option.some.inj (hitem.symm.trans hitem')
      rw [ValueType.identifierTypes_wrap]
      exact ⟨_, List.mem_singleton_self _, hliteral⟩
    | composed hcomposition =>
      rw [hscalar] at hcomposition
      cases hcomposition
  | step hinlines _ ih =>
    cases h with
    | scalar hcomposition =>
      obtain ⟨composition, hcomposition', -⟩ := hinlines
      rw [hcomposition] at hcomposition'
      cases hcomposition'
    | @composed _ _ composition item parts hcomposition hlisted _ hinline hitem =>
      obtain ⟨type, is, hpart⟩ := exists_part_of_inlines hcomposition hlisted hinlines
      obtain ⟨t, ht, hliteral⟩ := ih (hinline _ type is hpart) hscalar hmixed
      have htype : type ∈ parts.map Part.type := List.mem_map.2 ⟨_, hpart, rfl⟩
      rw [ValueType.identifierTypes_wrap]
      rcases ValueType.identifierTypes_collapse hitem with hkept | ⟨types, -, htypes, rfl⟩
      · exact ⟨t, hkept ▸ List.mem_flatMap.2 ⟨type, htype, ht⟩, hliteral⟩
      · rw [htypes] at htype
        obtain ⟨t', ht', rfl⟩ := List.mem_map.1 htype
        obtain rfl := List.mem_singleton.1 ht
        exact ⟨_, List.mem_singleton_self _,
          NodeKinds.mem_unions.2 ⟨_, List.mem_map_of_mem ht', hliteral⟩⟩

end Assembled

/-! ## Resolved properties -/

namespace ShapesGraph

variable {g : ShapesGraph} (h : g.Loaded)
include h

/-- The kinds of an object type are those of its shape, or else all identifiers. -/
theorem Loaded.objectType_kinds (n : Namer) (shape : g.Member) :
    (n.objectType shape.1).kinds.Identifying := by
  unfold Namer.objectType
  dsimp only
  split
  · exact ⟨rfl, by decide⟩
  · next hne => exact ⟨by simpa using hne, h.identifierKinds shape.1 shape.2⟩

theorem Loaded.object_kinds {settings : Settings} {s : State}
    (hs : Resolver.AllSettled g settings s) : ∀ o ∈ s.model.objects, o.kinds.Identifying := by
  intro o ho
  obtain ⟨id, hid⟩ := TypeModel.exists_object?_of_mem ho
  obtain ⟨shape, -, -, hreads⟩ := hs.of_object? hid
  have hread := congrArg ObjectType.kinds hreads
  have hkinds : o.kinds = ((Resolver.namer g settings).objectType shape.1).kinds := hread
  rw [hkinds]
  exact h.objectType_kinds _ shape

end ShapesGraph

namespace Resolver

open ShapesGraph Account

section Standing

variable {g : ShapesGraph} {settings : Settings}

/-- The account of what stands outside of all resolutions: entries are added, and what is
there stays as it is. -/
def standing (g : ShapesGraph) (settings : Settings) : Account where
  kept := Sound (namer g settings) (Found (g := g)) []
  passes := State.Extends
  error _ := True

theorem typesBy_standing : (standing g settings).TypesBy g
    (fun type s => s.model.extent.holds type = true) (fun v s => s.model.IsReference v) where
  refl := .refl
  trans _ _ _ := State.Extends.trans
  log s event _ hs := ⟨Sound.log hs event, (State.Extends.refl s).log event⟩
  errors := errorLaw_any g
  stable _ _ _ hpasses h := h.grows hpasses.model
  reference _ context type _ hheld := ⟨context, type, hheld, rfl⟩

/-- A property that is as it would be given once more is assembled from references to
entries of the model. -/
theorem AllSettled.assembled_of_propertyAgain? {s : State} (h : AllSettled g settings s)
    {q : g.Member} {p : Property} (hp : Resolver.propertyAgain? settings s q = some p)
    (hsame : s.SameTypes (outcome (resolveProperty g settings q) s).2) :
    ∃ introductions, Assembled g {} q p.type introductions ∧
      ∀ i ∈ introductions, s.model.IsReference i.type := by
  have hresolve : ∀ r, Found r → ∀ t, (standing g settings).kept t →
      (standing g settings).Runs (fun type u => u.model.extent.holds type = true) t
        (resolveNodeShape g settings r) := by
    intro r hr t ht
    refine (nodeShape_sound (fun _ h => h) .outermost r hr t ht).mono (fun _ h => h) ?_ ?_
    · exact fun type u ⟨hu, hext, hlisted⟩ => ⟨hu, hext, hu.holds hlisted⟩
    · exact fun _ u hsame => ⟨Sound.of_sameTypes ht hsame, hsame.extends, trivial⟩
  have hruns : (standing g settings).Runs
      (fun p => AssembledFrom g (fun v t => t.model.IsReference v) {} q p.type) s
      (resolveProperty g settings q) := by
    unfold resolveProperty
    rw [resolveProperty_eq]
    exact runs_property typesBy_standing hresolve (.inl leadsTo_nil) h.sound
  unfold Resolver.propertyAgain? at hp
  cases hrun : outcome (resolveProperty g settings q) s with
  | mk result t =>
    rw [hrun] at hp hsame
    cases result with
    | error e => cases hp
    | ok p' =>
      obtain rfl := Option.some.inj hp
      obtain ⟨-, -, introductions, hassembled, hreferences⟩ := hruns.ok rfl hrun
      have hmodel : t.model = s.model := hsame.model
      rw [← hmodel]
      exact ⟨introductions, hassembled, hreferences⟩

end Standing

/-- In the model of a loaded graph, object types have kinds and literals are not among
them.  The item type of a list is the type of a property.  All identifier types in the type
of a property have kinds; and literals are among the kinds of one exactly if the property
shape comes to an inline shape which is typed as this identifier and which comes to a
shape whose values are identifiers, the default value in force there among them, although
its node kinds allow literals.  If the property shape comes to such a shape at all, there
is such an identifier type. -/
theorem identifier_kinds {triples : List Triple} {prefixes : PrefixMap} {g : ShapesGraph}
    {settings : Settings} {m : TypeModel} (hload : ofTriples triples prefixes = .ok g)
    (hok : (resolveGraph g settings).1 = .ok m) :
    ∀ o ∈ m.objects, o.kinds.Identifying ∧
      (∀ v, o.listItemType = some v → ∃ p ∈ o.properties, p.type = v) ∧
      ∀ p ∈ o.properties, ∃ q, g.member? p.name.identifier = some q ∧
        (∀ t ∈ p.type.identifierTypes, t.kinds.isEmpty = false ∧
          (NodeKind.literal ∈ t.kinds ↔ ∃ inherited r, g.ComesTo {} q inherited r ∧
            m.TypesAs g inherited r t ∧ g.Mixes inherited r)) ∧
        (g.Mixes {} q → ∃ t ∈ p.type.identifierTypes, NodeKind.literal ∈ t.kinds) := by
  have hloaded : g.Loaded := loaded_of_ofTriples hload
  have hspec := ensures_resolveAll g settings
  cases hrun : outcome (resolveAll g settings) .empty with
  | mk result s =>
    rw [resolveGraph, hrun] at hok
    obtain rfl : result = .ok m := hok
    obtain ⟨rfl, hs, -, -⟩ := hspec.ok rfl hrun
    have hkinds := hloaded.object_kinds hs
    intro o ho
    obtain ⟨id, hid⟩ := TypeModel.exists_object?_of_mem ho
    refine ⟨hkinds o ho, fun v hv => ?_, fun p hp => ?_⟩
    · obtain ⟨shape, -, hlist⟩ := hs.listItemType_eq hid
      rw [hlist] at hv
      split at hv
      · obtain ⟨first, rest, hpair, -, htype, -⟩ := ObjectType.itemTypeAs?_eq_some.1 hv
        exact ⟨first, by rcases hpair with h | h <;> simp [h], htype⟩
      · cases hv
    · obtain ⟨shape, properties, -, hproperties, hfixed, hsame⟩ := hs.object_fixed hid
      rw [hfixed] at hp
      obtain ⟨q, hq, hp⟩ := List.mem_filterMap.1 hp
      have hfound : Found q := found_of_mem_propertyShapes hproperties hq
      obtain ⟨introductions, hassembled, hreferences⟩ :=
        hs.assembled_of_propertyAgain? hp (hsame q hq)
      refine ⟨q, (propertyAgain?_fields hp).1 ▸ hfound, fun t ht => ?_, hassembled.exists_literal⟩
      obtain ⟨hne, hsource⟩ := hassembled.traces hkinds hreferences t ht
      refine ⟨hne, hsource, ?_⟩
      -- the shape that is typed as the identifier has it as its only one
      rintro ⟨inherited, r, -, ⟨v, is, hv, -, htype⟩, hmixes⟩
      obtain ⟨t', ht', hliteral⟩ := hv.exists_literal hmixes
      rw [ValueType.identifierTypes_of_withoutCardinality htype] at ht'
      exact List.mem_singleton.1 ht' ▸ hliteral

/-! A host receives a guest, who is a visitor by default: one that is known, or a
stranger.  The node kinds of strangers allow literals. -/

/-- The statements about them. -/
def receiving : List Triple :=
  [⟨.iri ⟨"host"⟩, sh.property, .iri ⟨"guest"⟩⟩,
   ⟨.iri ⟨"guest"⟩, sh.path, .iri ⟨"receives"⟩⟩,
   ⟨.iri ⟨"guest"⟩, sh.defaultValue, .iri ⟨"visitor"⟩⟩,
   ⟨.iri ⟨"guest"⟩, sh.disjunction, .blank "either"⟩,
   ⟨.blank "either", rdf.first, .iri ⟨"known"⟩⟩,
   ⟨.blank "either", rdf.rest, .blank "or"⟩,
   ⟨.blank "or", rdf.first, .iri ⟨"stranger"⟩⟩,
   ⟨.blank "or", rdf.rest, .iri rdf.nil⟩,
   ⟨.iri ⟨"known"⟩, sh.nodeKind, .iri sh.iri⟩,
   ⟨.iri ⟨"stranger"⟩, sh.nodeKind, .iri sh.iriOrLiteral⟩]

/-- The identifier types in the model of a graph that is loaded from statements. -/
def identifierTypesOf (triples : List Triple) : Option (List IdentifierType) := do
  let g ← (ofTriples triples .empty).toOption
  let m ← (resolveGraph g .standard).1.toOption
  return m.identifierTypes

theorem exists_model_of_identifierTypesOf {triples : List Triple} {types : List IdentifierType}
    (h : identifierTypesOf triples = some types) :
    ∃ g m, ofTriples triples .empty = .ok g ∧ (resolveGraph g .standard).1 = .ok m ∧
      m.identifierTypes = types := by
  obtain ⟨g, hg, hrest⟩ := Option.bind_eq_some_iff.1 h
  obtain ⟨m, hm, htypes⟩ := Option.bind_eq_some_iff.1 hrest
  refine ⟨g, m, ?_, ?_, Option.some.inj htypes⟩
  · cases hload : ofTriples triples .empty with
    | error e => rw [hload] at hg; cases hg
    | ok g' => rw [hload] at hg; exact congrArg Except.ok (Option.some.inj hg)
  · cases hok : (resolveGraph g .standard).1 with
    | error e => rw [hok] at hm; cases hm
    | ok m' => rw [hok] at hm; exact congrArg Except.ok (Option.some.inj hm)

/-- An identifier type with literals among its kinds shows in a computation. -/
theorem exists_literal_of_identifierTypesOf (triples : List Triple)
    (h : ((identifierTypesOf triples).map fun types =>
      types.any fun t => decide (NodeKind.literal ∈ t.kinds)) = some true) :
    ∃ g m, ofTriples triples .empty = .ok g ∧ (resolveGraph g .standard).1 = .ok m ∧
      ∃ t ∈ m.identifierTypes, NodeKind.literal ∈ t.kinds := by
  obtain ⟨types, htypes, hany⟩ := Option.map_eq_some_iff.1 h
  obtain ⟨g, m, hload, hok, rfl⟩ := exists_model_of_identifierTypesOf htypes
  obtain ⟨t, ht, hliteral⟩ := List.any_eq_true.1 hany
  exact ⟨g, m, hload, hok, t, ht, of_decide_eq_true hliteral⟩

theorem identifier_kinds_visitor : ∃ g m, ofTriples receiving .empty = .ok g ∧
    (resolveGraph g .standard).1 = .ok m ∧ ∃ o ∈ m.objects, ∃ p ∈ o.properties, ∃ q,
      g.member? p.name.identifier = some q ∧ g.Mixes {} q ∧
        ∃ t ∈ p.type.identifierTypes, NodeKind.literal ∈ t.kinds := by
  obtain ⟨g, m, hload, hok, t, ht, hliteral⟩ :=
    exists_literal_of_identifierTypesOf receiving (by decide +kernel)
  obtain ⟨o, ho, hmem⟩ := List.mem_flatMap.1 ht
  obtain ⟨-, hitems, hproperties⟩ := identifier_kinds hload hok o ho
  have hproperty : ∃ p ∈ o.properties, t ∈ p.type.identifierTypes := by
    rcases List.mem_append.1 hmem with hproperty | hitem
    · exact List.mem_flatMap.1 hproperty
    · obtain ⟨v, hv, hmem⟩ := List.mem_flatMap.1 hitem
      obtain ⟨p, hp, rfl⟩ := hitems v (Option.mem_toList.1 hv)
      exact ⟨p, hp, hmem⟩
  obtain ⟨p, hp, ht⟩ := hproperty
  obtain ⟨q, hq, hkinds, -⟩ := hproperties p hp
  obtain ⟨inherited, r, hr, -, hmixes⟩ := (hkinds t ht).2.1 hliteral
  exact ⟨g, m, hload, hok, o, ho, p, hp, q, hq, .of_comesTo hr hmixes, t, ht, hliteral⟩

/-! It takes no inline members: one property shape will do, with a fixed value. -/

/-- The statements about a host and a guest with a node kind. -/
def visiting (kind : Iri) : List Triple :=
  [⟨.iri ⟨"host"⟩, sh.property, .iri ⟨"guest"⟩⟩,
   ⟨.iri ⟨"guest"⟩, sh.path, .iri ⟨"receives"⟩⟩,
   ⟨.iri ⟨"guest"⟩, sh.nodeKind, .iri kind⟩,
   ⟨.iri ⟨"guest"⟩, sh.hasValue, .iri ⟨"visitor"⟩⟩]

/-- The node kind for IRIs and literals comes through, although the value is an IRI. -/
theorem literal_identifier : ∃ g m, ofTriples (visiting sh.iriOrLiteral) .empty = .ok g ∧
    (resolveGraph g .standard).1 = .ok m ∧
    ∃ t ∈ m.identifierTypes, NodeKind.literal ∈ t.kinds :=
  exists_literal_of_identifierTypesOf _ (by decide +kernel)

end Resolver

end ShaclTypes
