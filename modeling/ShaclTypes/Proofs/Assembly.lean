import Mathlib.Data.List.Chain
import Mathlib.Logic.Relation
import ShaclTypes.Proofs.Inline
import ShaclTypes.Proofs.Leaves
set_option autoImplicit false

/-!
# How types are assembled

The type of a property is assembled from references to node shapes and from the types of
inline members, which are assembled alike, and settings go down with the recursion.
`Assembled` says how, without states and failures, and keeps account of each reference:
by which inline shapes it was come to (`Introduction`).  What is true of all assembled
types is proved by induction on how they are assembled.
-/

namespace ShaclTypes

open ShaclTypes.Rdf

/-! ## Shapes typed in place -/

/-- What a conjunction or disjunction lists; it may be typed in place. -/
def Composition.listed : Composition → List Term
  | conjunction members | disjunction members => members
  | classes _ | nodes _ => []

namespace ShapesGraph

/-- The second shape is a member of the conjunction or disjunction of the first, and
is typed in place: it is no declared node shape and has no properties. -/
def Inlines (g : ShapesGraph) (s r : g.Member) : Prop :=
  ∃ composition, s.1.constraints.composition? = some composition ∧
    ∃ member ∈ composition.listed, g.member? member = some r ∧
      g.isDeclared member = false ∧ r.1.constraints.properties = []

/-- A shape reaches itself through members that are typed in place.  There are two
shapes in the statement only because a graph can have several with one identifier. -/
def ReachesItself (g : ShapesGraph) (t : Term) : Prop :=
  ∃ s r : g.Member, s.1.identifier = t ∧ r.1.identifier = t ∧ Relation.TransGen g.Inlines s r

/-- The inline shapes that are being typed, the innermost first, lead to a shape. -/
def LeadsTo (g : ShapesGraph) (trail : List Term) (shape : g.Member) : Prop :=
  ∀ t ∈ trail, ∃ s : g.Member, s.1.identifier = t ∧ Relation.TransGen g.Inlines s shape

variable {g : ShapesGraph} {trail : List Term} {shape r : g.Member}

theorem leadsTo_nil : g.LeadsTo [] shape := fun _ ht => by cases ht

theorem LeadsTo.walk (h : g.LeadsTo trail shape) (hr : g.Inlines shape r) :
    g.LeadsTo (shape.1.identifier :: trail) r := by
  intro t ht
  rcases List.mem_cons.1 ht with rfl | ht
  · exact ⟨shape, rfl, .single hr⟩
  · obtain ⟨s, hs, hreaches⟩ := h t ht
    exact ⟨s, hs, hreaches.tail hr⟩

theorem LeadsTo.reachesItself (h : g.LeadsTo trail shape) (hmem : shape.1.identifier ∈ trail) :
    g.ReachesItself shape.1.identifier := by
  obtain ⟨s, hs, hreaches⟩ := h _ hmem
  exact ⟨s, shape, hs, rfl, hreaches⟩

end ShapesGraph

/-! ## References and cardinalities in types -/

namespace ValueType

/-- The references to object types in a type, at any depth and from left to right, each
with whether it is embedded. -/
def objectReferences (t : ValueType) : List (ObjectId × Bool) :=
  t.leaves.filterMap fun leaf =>
    match leaf with
    | object id inline => some (id, inline)
    | _ => none

mutual

/-- Whether there is a set or an option in a type, at any depth. -/
def hasCardinality : ValueType → Bool
  | set _ _ | option _ => true
  | composite _ members => anyHasCardinality members
  | literal _ | identifier _ | object _ _ | objectComposite _ _ => false

/-- Whether there is a set or an option in one of the types. -/
def anyHasCardinality : List ValueType → Bool
  | [] => false
  | t :: rest => t.hasCardinality || anyHasCardinality rest

end

theorem anyHasCardinality_eq_false {members : List ValueType} :
    anyHasCardinality members = false ↔ ∀ member ∈ members, member.hasCardinality = false := by
  induction members with
  | nil => simp [anyHasCardinality]
  | cons t rest ih => simp [anyHasCardinality, ih]

theorem objectReferences_wrap (c : Cardinality) (item : ValueType) :
    (c.wrap item).objectReferences = item.objectReferences := by
  rw [objectReferences, leaves_wrap, objectReferences]

variable {kind : CompositeKind} {hasFixedValue : Bool} {members : List ValueType} {v : ValueType}

/-- No reference is lost or made when members collapse. -/
theorem objectReferences_collapse (h : collapse kind hasFixedValue members = .ok v) :
    v.objectReferences = members.flatMap objectReferences := by
  rcases collapse_cases h with rfl | hshortcut | rfl
  · simp
  · rcases shortcut?_cases hshortcut with ⟨rfl, hgeneric⟩ | ⟨types, -, rfl, rfl⟩
    · refine (List.flatMap_eq_nil_iff.2 fun member hmember => ?_).symm
      obtain ⟨type, hunder, -⟩ := hgeneric member hmember
      rw [objectReferences, ← leaves_withoutCardinality, hunder]
      rfl
    · rw [List.flatMap_map]
      exact (List.flatMap_eq_nil_iff.2 fun _ _ => rfl).symm
  · rw [objectReferences, leaves, leavesList_eq_flatMap, List.filterMap_flatMap]
    rfl

/-- A cardinality does not come from collapsing. -/
theorem hasCardinality_collapse (h : collapse kind hasFixedValue members = .ok v)
    (hmembers : ∀ member ∈ members, member.hasCardinality = false) : v.hasCardinality = false := by
  rcases collapse_cases h with rfl | hshortcut | rfl
  · exact hmembers v List.mem_cons_self
  · rcases shortcut?_cases hshortcut with ⟨rfl, -⟩ | ⟨_, -, -, rfl⟩ <;> rfl
  · exact anyHasCardinality_eq_false.2 hmembers

end ValueType

/-! ## References to node shapes -/

/-- The type that refers to a node shape, in a model.  An external object type is
nothing but an identifier of its kinds. -/
def TypeModel.referenceType (m : TypeModel) (context : Inherited) : NodeType → ValueType
  | .composite kind id => .objectComposite kind id
  | .object id =>
    match (m.object? id).filter ObjectType.isExternal with
    | some o => .identifier { kinds := o.kinds }
    | none => .object id (context.inline.getD false)

/-- In some model, the type is a reference to a node shape under the settings. -/
def Inherited.Refers (context : Inherited) (t : ValueType) : Prop :=
  ∃ (m : TypeModel) (type : NodeType), t = m.referenceType context type

theorem Inherited.Refers.cases {context : Inherited} {t : ValueType} (h : context.Refers t) :
    (∃ kind id, t = .objectComposite kind id) ∨ (∃ kinds, t = .identifier { kinds }) ∨
      ∃ id, t = .object id (context.inline.getD false) := by
  obtain ⟨m, type, rfl⟩ := h
  cases type with
  | composite kind id => exact .inl ⟨kind, id, rfl⟩
  | object id =>
    simp only [TypeModel.referenceType]
    split
    · next o _ => exact .inr (.inl ⟨o.kinds, rfl⟩)
    · exact .inr (.inr ⟨id, rfl⟩)

theorem Inherited.Refers.hasCardinality {context : Inherited} {t : ValueType}
    (h : context.Refers t) : t.hasCardinality = false := by
  rcases h.cases with ⟨_, _, rfl⟩ | ⟨_, rfl⟩ | ⟨_, rfl⟩ <;> rfl

/-- A reference is embedded if the settings say so. -/
theorem Inherited.Refers.embedded {context : Inherited} {t : ValueType} (h : context.Refers t)
    {ref : ObjectId × Bool} (href : ref ∈ t.objectReferences) :
    ref.2 = context.inline.getD false := by
  rcases h.cases with ⟨_, _, rfl⟩ | ⟨_, rfl⟩ | ⟨_, rfl⟩
  · cases href
  · cases href
  · obtain rfl := List.mem_singleton.1 href
    rfl

/-! ## Assembly -/

namespace ShapesGraph

/-- The shape that a listed member is typed in place as, unless it is referred to. -/
def inlined? (g : ShapesGraph) (member : Term) : Option g.Member :=
  (g.member? member).filter fun r => !(g.isDeclared member || !r.1.constraints.properties.isEmpty)

variable {g : ShapesGraph}

theorem inlined?_eq_some {member : Term} {r : g.Member} :
    g.inlined? member = some r ↔ g.member? member = some r ∧
      g.isDeclared member = false ∧ r.1.constraints.properties = [] := by
  simp [inlined?, Option.filter_eq_some_iff]

theorem inlines_of_inlined? {s r : g.Member} {composition : Composition}
    (hcomposition : s.1.constraints.composition? = some composition) {member : Term}
    (hmember : member ∈ composition.listed) (hr : g.inlined? member = some r) : g.Inlines s r :=
  ⟨composition, hcomposition, member, hmember, inlined?_eq_some.1 hr⟩

end ShapesGraph

/-- What a type that refers to something was come to by: the inline shapes from the
outermost to the one whose member it is. -/
structure Introduction (g : ShapesGraph) where
  way : List g.Member
  type : ValueType

/-- A part of a composite, with its type: a reference, or the type of an inline shape with
its own account of references. -/
inductive Part (g : ShapesGraph) where
  | reference (type : ValueType)
  | inline (shape : g.Member) (type : ValueType) (introductions : List (Introduction g))

namespace Part

variable {g : ShapesGraph}

/-- The type of the part. -/
def type : Part g → ValueType
  | reference type | inline _ type _ => type

/-- The inline shape whose type the part is. -/
def shape? : Part g → Option g.Member
  | reference _ => none
  | inline shape _ _ => some shape

/-- The account of references from the shape on that the part belongs to. -/
def introductions (s : g.Member) : Part g → List (Introduction g)
  | reference type => [⟨[s], type⟩]
  | inline _ _ introductions => introductions.map fun i => ⟨s :: i.way, i.type⟩

end Part

/-- The cardinality of a shape's values under the settings around it. -/
def Inherited.cardinality (inherited : Inherited) (s : Shape) : Cardinality where
  minCount := s.constraints.minCount
  maxCount := s.constraints.maxCount
  hasDefault := (inherited.within s).defaultValue.isSome
  nested := inherited.nested

/-- A default value makes the cardinality nothing to speak of. -/
theorem Inherited.wrap_of_default {inherited : Inherited} {s : Shape}
    (h : (inherited.within s).defaultValue.isSome = true) (item : ValueType) :
    (inherited.cardinality s).wrap item = item := if_pos h

/-- A default value stays in force within. -/
theorem Inherited.default_within {inherited : Inherited} (s : Shape)
    (h : inherited.defaultValue.isSome = true) :
    (inherited.within s).defaultValue.isSome = true := by
  unfold within
  cases s.constraints.defaultValue with
  | none => exact h
  | some _ => rfl

/-- Under the settings around it, a shape has a type, with an account of the references
in it.  The type comes by the scalar rules, or it collapses from parts: one for each
listed member that is typed in place, in their order and under the settings within the
shape, and else references under these settings. -/
inductive Assembled (g : ShapesGraph) :
    Inherited → g.Member → ValueType → List (Introduction g) → Prop
  | scalar {inherited : Inherited} {shape : g.Member} {item : ValueType}
      (hcomposition : shape.1.constraints.composition? = none)
      (hitem : scalarType? ⟨shape.1.constraints, (inherited.within shape.1).defaultValue⟩ =
        some item) :
      Assembled g inherited shape ((inherited.cardinality shape.1).wrap item) []
  | composed {inherited : Inherited} {shape : g.Member} {composition : Composition}
      {item : ValueType} {parts : List (Part g)}
      (hcomposition : shape.1.constraints.composition? = some composition)
      (hlisted : parts.filterMap Part.shape? = composition.listed.filterMap g.inlined?)
      (hreference : ∀ type, .reference type ∈ parts → (inherited.within shape.1).Refers type)
      (hinline : ∀ r type introductions, .inline r type introductions ∈ parts →
        Assembled g (inherited.within shape.1) r type introductions)
      (hitem : ValueType.collapse composition.kind (!shape.1.constraints.fixedValues.isEmpty)
        (parts.map Part.type) = .ok item) :
      Assembled g inherited shape ((inherited.cardinality shape.1).wrap item)
        (parts.flatMap (Part.introductions shape))

section Parts

variable {g : ShapesGraph} {shape r : g.Member} {composition : Composition} {parts : List (Part g)}
variable (hcomposition : shape.1.constraints.composition? = some composition)
variable (hlisted : parts.filterMap Part.shape? = composition.listed.filterMap g.inlined?)
include hcomposition hlisted

/-- The inline shape of a part is a member that is typed in place. -/
theorem inlines_of_mem_parts {type : ValueType} {introductions : List (Introduction g)}
    (hpart : .inline r type introductions ∈ parts) : g.Inlines shape r := by
  have hr : r ∈ composition.listed.filterMap g.inlined? :=
    hlisted ▸ List.mem_filterMap.2 ⟨_, hpart, rfl⟩
  obtain ⟨member, hmember, hr⟩ := List.mem_filterMap.1 hr
  exact ShapesGraph.inlines_of_inlined? hcomposition hmember hr

/-- A member that is typed in place has a part. -/
theorem exists_part_of_inlines (h : g.Inlines shape r) :
    ∃ type introductions, .inline r type introductions ∈ parts := by
  obtain ⟨composition', hcomposition', member, hmember, hr⟩ := h
  obtain rfl : composition = composition' :=
    Option.some.inj (hcomposition.symm.trans hcomposition')
  have hr' : r ∈ parts.filterMap Part.shape? :=
    hlisted ▸ List.mem_filterMap.2 ⟨member, hmember, ShapesGraph.inlined?_eq_some.2 hr⟩
  obtain ⟨part, hpart, hshape⟩ := List.mem_filterMap.1 hr'
  cases part with
  | reference type => cases hshape
  | inline r' type introductions =>
    obtain rfl := Option.some.inj hshape
    exact ⟨type, introductions, hpart⟩

end Parts

/-! ## What assembled types are like -/

section Scalars

variable {x : ScalarEvidence} {v : ValueType} (h : scalarType? x = some v)
include h

theorem objectReferences_of_scalarType? : v.objectReferences = [] := by
  obtain ⟨rule, -, rfl⟩ := Option.map_eq_some_iff.1 h
  cases rule <;> rfl

theorem hasCardinality_of_scalarType? : v.hasCardinality = false := by
  obtain ⟨rule, -, rfl⟩ := Option.map_eq_some_iff.1 h
  cases rule <;> rfl

end Scalars

/-- The setting at the end of a way: that of the last shape that has one, or else the one
that was in force before. -/
def ShapesGraph.inlineAlong {g : ShapesGraph} (before : Option Bool) (way : List g.Member) :
    Option Bool :=
  way.foldl (fun inForce r => r.1.annotations.inline <|> inForce) before

namespace Assembled

variable {g : ShapesGraph} {inherited : Inherited} {shape : g.Member} {t : ValueType}
variable {introductions : List (Introduction g)}

/-- The account of references is complete: in the same order and with the same repeats. -/
theorem objectReferences (h : Assembled g inherited shape t introductions) :
    t.objectReferences = introductions.flatMap fun i => i.type.objectReferences := by
  induction h with
  | scalar _ hitem =>
    rw [ValueType.objectReferences_wrap, objectReferences_of_scalarType? hitem]
    rfl
  | @composed inherited shape composition item parts _ _ _ _ hitem ih =>
    rw [ValueType.objectReferences_wrap, ValueType.objectReferences_collapse hitem,
      List.flatMap_map, List.flatMap_assoc]
    refine List.flatMap_congr fun part hpart => ?_
    cases part with
    | reference type => simp [Part.type, Part.introductions]
    | inline r type is =>
      rw [Part.type, ih r type is hpart, Part.introductions, List.flatMap_map]

/-- Each way leads from the shape on, from inline shape to inline shape. -/
theorem way (h : Assembled g inherited shape t introductions) :
    ∀ i ∈ introductions, i.way.head? = some shape ∧ i.way.IsChain g.Inlines := by
  induction h with
  | scalar => exact fun _ hi => nomatch hi
  | @composed inherited shape composition item parts hcomposition hlisted _ _ _ ih =>
    intro i hi
    obtain ⟨part, hpart, hi⟩ := List.mem_flatMap.1 hi
    cases part with
    | reference type =>
      obtain rfl := List.mem_singleton.1 hi
      exact ⟨rfl, .singleton shape⟩
    | inline r type is =>
      -- the way within the part starts at its shape, which is listed
      obtain ⟨j, hj, rfl⟩ := List.mem_map.1 hi
      obtain ⟨hhead, hchain⟩ := ih r type is hpart j hj
      refine ⟨rfl, List.isChain_cons.2 ⟨fun r' hr' => ?_, hchain⟩⟩
      obtain rfl := Option.some.inj (hhead.symm.trans hr')
      exact inlines_of_mem_parts hcomposition hlisted hpart

/-- A reference is under the setting at the end of the way to it. -/
theorem setting (h : Assembled g inherited shape t introductions) :
    ∀ i ∈ introductions, ∃ context : Inherited,
      context.inline = g.inlineAlong inherited.inline i.way ∧ context.Refers i.type := by
  induction h with
  | scalar => exact fun _ hi => nomatch hi
  | @composed inherited shape composition item parts _ _ hreference _ _ ih =>
    intro i hi
    obtain ⟨part, hpart, hi⟩ := List.mem_flatMap.1 hi
    cases part with
    | reference type =>
      obtain rfl := List.mem_singleton.1 hi
      exact ⟨_, rfl, hreference type hpart⟩
    | inline r type is =>
      -- what is in force within the shape is what is in force before the rest of the way
      obtain ⟨j, hj, rfl⟩ := List.mem_map.1 hi
      exact ih r type is hpart j hj

/-- Under a default value there are no cardinalities. -/
theorem hasCardinality (h : Assembled g inherited shape t introductions)
    (hdefault : (inherited.within shape.1).defaultValue.isSome = true) :
    t.hasCardinality = false := by
  induction h with
  | scalar _ hitem =>
    rw [Inherited.wrap_of_default hdefault]
    exact hasCardinality_of_scalarType? hitem
  | @composed inherited shape composition item parts _ _ hreference _ hitem ih =>
    rw [Inherited.wrap_of_default hdefault]
    refine ValueType.hasCardinality_collapse hitem (List.forall_mem_map.2 fun part hpart => ?_)
    cases part with
    | reference type => exact (hreference type hpart).hasCardinality
    | inline r type is => exact ih r type is hpart (Inherited.default_within r.1 hdefault)

end Assembled

end ShaclTypes
