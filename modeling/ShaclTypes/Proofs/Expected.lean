import Mathlib.Logic.Relation
import ShaclTypes.Proofs.Mirror
import ShaclTypes.Proofs.Resolvable
set_option autoImplicit false

/-!
# What node shapes are expected to resolve to

Once it is settled which node shapes can be resolved, the catalogue can answer
for all of them at once (`fromCatalogue`), and every entry can be written down in
the numbers of the catalogue without resolving anything: `expectedObject` and
`expectedComposite`.  Resolution is right if every entry reads as expected and if
whatever its shape needs has an entry as well (`Settled`).
-/

namespace ShaclTypes

open ShaclTypes.Rdf ShaclTypes.Vocabulary

/-! ## Answers from the catalogue -/

namespace Resolver

open ShapesGraph

variable {g : ShapesGraph}

open Classical in
/-- A way to resolve node shapes without building any: those that can be resolved
stand for their slots, and that they were asked for is recorded. -/
noncomputable def fromCatalogue (g : ShapesGraph) (R : Term → Prop) : NodeResolver g := fun s =>
  if R s.1.identifier then do
    modify (·.record s.1.identifier (g.slot s))
    return g.slot s
  else throw (.unknownShape s.1.identifier)

/-- Resolving a property shape with the answers of the catalogue. -/
noncomputable def catalogued (n : Namer) (R : Term → Prop) (q : g.Member) :
    Except ResolutionError Property × State :=
  outcome (property n (inlineType (fromCatalogue g R) []) q) { model := g.catalogue n }

/-- The property that a property shape is expected to have, if it has one. -/
noncomputable def expectedProperty? (n : Namer) (R : Term → Prop) (q : g.Member) :
    Option Property :=
  (catalogued n R q).1.toOption

/-- The node shapes that a property shape needs resolved. -/
noncomputable def asked (n : Namer) (R : Term → Prop) (q : g.Member) : List Term :=
  (catalogued n R q).2.resolved.map Prod.fst

/-- A way to resolve node shapes keeps a record of what it has been asked for: it
succeeds where the catalogue does and with the right entry, and `J` relates the
node shapes that have been resolved so far, the latest first, to the state. -/
structure Tracks (n : Namer) (R : Term → Prop) (J : List Term → State → Prop)
    (resolve : NodeResolver g) : Prop where
  sound : ∀ met t, J met t → ∃ places, Sound n (Found (g := g)) places t
  log : ∀ met t e, J met t → J met (t.log e)
  step : ∀ r, Found r → ∀ met t, J met t → Ensures (fun u => u = t) (resolve r)
    (fun type u => R r.1.identifier ∧ J (r.1.identifier :: met) u ∧
      t.model.Retains u.model ∧ ReadsAs g u.model NodeType.renumber type (g.slot r))
    (fun _ u => ¬R r.1.identifier ∧ J met u ∧ t.model.Retains u.model)

namespace Tracks

variable {n : Namer} {R : Term → Prop} {J : List Term → State → Prop} {resolve : NodeResolver g}

/-- What is recorded beside the catalogue describes the state. -/
def Beside (g : ShapesGraph) (n : Namer) (J : List Term → State → Prop) (t t' : State) : Prop :=
  t'.model = g.catalogue n ∧ J (t'.resolved.map Prod.fst) t

theorem alongside (h : Tracks n R J resolve) : Alongside n g (Beside g n J) where
  sound t _ ht := h.sound _ t ht.2
  catalogue _ _ ht := ht.1
  log t _ e _ ht := ⟨ht.1, h.log _ t e ht.2⟩

/-- Resolving goes alike with the answers of the catalogue. -/
theorem mirrored (h : Tracks n R J resolve) {r : g.Member} (hr : Found r) {t t' : State}
    (ht : Beside g n J t t') :
    Mirrored g (Beside g n J) NodeType.renumber t t' (resolve r) (fromCatalogue g R r) := by
  have hstep := h.step r hr _ t ht.2
  unfold Mirrored fromCatalogue
  cases hrun : outcome (resolve r) t with
  | mk result u =>
    cases result with
    | ok type =>
      obtain ⟨hresolvable, hu, hretains, hreads⟩ := hstep.ok rfl hrun
      simp only [if_pos hresolvable, outcome_bind, outcome_modify, outcome_pure]
      exact ⟨⟨ht.1, hu⟩, hretains, hreads⟩
    | error e =>
      obtain ⟨hresolvable, hu, hretains⟩ := hstep.error rfl hrun
      simp only [if_neg hresolvable, outcome_throw]
      exact ⟨⟨ht.1, hu⟩, hretains⟩

/-- A property shape has the expected property or none, and all that it asks for
has been resolved then. -/
theorem ensures_property (h : Tracks n R J resolve) (q : g.Member) {s : State} (hs : J [] s) :
    Ensures (fun t => t = s) (property n (inlineType resolve []) q)
      (fun p t => J (asked n R q) t ∧
        ∃ p', expectedProperty? n R q = some p' ∧ ReadsAs g t.model Property.renumber p p')
      (fun _ t => J (asked n R q) t ∧ expectedProperty? n R q = none) := by
  rintro s rfl
  have hstart : Beside g n J s { model := g.catalogue n } := ⟨rfl, hs⟩
  have hmirrored := mirrored_property h.alongside (fun r hr _ _ ht => h.mirrored hr ht) n q hstart
  unfold expectedProperty? asked catalogued
  obtain ⟨p, p', t, t', hrun, hrun', ht, -, hreads⟩ | ⟨e, e', t, t', hrun, hrun', ht, -⟩ :=
    hmirrored.cases
  · simp only [hrun, hrun']
    exact ⟨ht.2, p', rfl, hreads⟩
  · simp only [hrun, hrun']
    exact ⟨ht.2, rfl⟩

end Tracks

/-! ## Expected entries -/

/-- The slots of the object types among the relatives of a shape. -/
def relativeSlots (g : ShapesGraph) (kinship : Kinship) (s : Shape) : List ObjectId :=
  (g.relatives kinship s).filterMap fun r => (g.slot r).object?

theorem relativeSlots_eq_filterMap (kinship : Kinship) (s : Shape) :
    relativeSlots g kinship s = ((g.relatives kinship s).map g.slot).filterMap NodeType.object? := by
  rw [List.filterMap_map]
  rfl

/-- The object type of a shape with its relatives. -/
def linkedObject (g : ShapesGraph) (n : Namer) (s : Shape) : ObjectType :=
  { n.objectType s with
    ancestors := relativeSlots g .ancestor s
    descendants := relativeSlots g .descendant s
    parents := relativeSlots g .parent s
    children := relativeSlots g .child s }

/-- The object type of a shape with its relatives and properties. -/
noncomputable def typedObject (g : ShapesGraph) (n : Namer) (R : Term → Prop) (s : Shape) :
    ObjectType :=
  { linkedObject g n s with
    properties :=
      ((g.propertyShapes s).toOption.getD []).filterMap (expectedProperty? n R) }

/-- The type of the list items that a shape is expected to have, if it has one. -/
noncomputable def expectedItem? (g : ShapesGraph) (n : Namer) (R : Term → Prop) (s : Shape) :
    Option ValueType :=
  if g.isSubclassOf s (.iri rdf.list) then
    (typedObject g n R s).itemTypeAs? ⟨g.number s.identifier⟩
  else none

/-- The object type that a shape is expected to have. -/
noncomputable def expectedObject (g : ShapesGraph) (n : Namer) (R : Term → Prop) (s : Shape) :
    ObjectType :=
  { typedObject g n R s with listItemType := expectedItem? g n R s }

/-- The composite that a shape is expected to have. -/
noncomputable def expectedComposite (g : ShapesGraph) (n : Namer) (R : Term → Prop) (s : Shape)
    (members : List Term) : ObjectComposite :=
  { n.objectComposite s with members := g.memberSlots R members }

/-! ## What a shape needs -/

/-- The node shapes that are resolved while a node shape is built. -/
def Needs (g : ShapesGraph) (n : Namer) (R : Term → Prop) (s : Shape) (t : Term) : Prop :=
  match s.constraints.nodeComposition? with
  | some (_, members) => t ∈ members ∧ R t ∧ (g.member? t).isSome = true
  | none =>
    (∃ kinship, ∃ r ∈ g.relatives kinship s, r.1.identifier = t) ∨
      ∃ properties, g.propertyShapes s = .ok properties ∧ ∃ q ∈ properties, t ∈ asked n R q

/-- The node shapes that come to be resolved with a node shape. -/
def Leads (g : ShapesGraph) (n : Namer) (R : Term → Prop) : Term → Term → Prop :=
  Relation.ReflTransGen fun t u => ∃ s, g.member? t = some s ∧ Needs g n R s.1 u

/-! ## Settled entries -/

/-- An entry reads as its shape lets expect. -/
def AsExpected (g : ShapesGraph) (n : Namer) (R : Term → Prop) (m : TypeModel) (s : Shape) :
    NodeType → Prop
  | .object id =>
    ∃ o, s.constraints.nodeComposition? = none ∧ m.object? id = some o ∧
      ReadsAs g m ObjectType.renumber o (expectedObject g n R s)
  | .composite kind id =>
    ∃ c members, s.constraints.nodeComposition? = some (kind, members) ∧
      m.composite? kind id = some c ∧
      ReadsAs g m ObjectComposite.renumber c (expectedComposite g n R s members)

/-- An entry of the ledger is settled: its shape can be built, it reads as
expected, and all that the shape needs is in the ledger. -/
structure Settled (g : ShapesGraph) (n : Namer) (R : Term → Prop) (known : List Term)
    (m : TypeModel) (p : Term × NodeType) (s : g.Member) : Prop where
  member : g.member? p.1 = some s
  buildable : g.Buildable R s.1
  expected : AsExpected g n R m s.1 p.2
  closed : ∀ t, Needs g n R s.1 t → t ∈ known

end Resolver

/-- What the first model has in a place, the second has there too. -/
def TypeModel.KeepsEntry (m m' : TypeModel) : NodeType → Prop
  | .object id => ∀ o, m.object? id = some o → m'.object? id = some o
  | .composite kind id => ∀ c, m.composite? kind id = some c → m'.composite? kind id = some c

namespace TypeModel

theorem Grows.keepsEntry {m m' : TypeModel} (h : m.Grows m') (type : NodeType) :
    m.KeepsEntry m' type := by
  cases type with
  | object id => exact fun _ ho => h.object? ho
  | composite kind id => exact fun _ hc => h.composite? hc

/-- Changing one object type changes no other entry. -/
theorem keepsEntry_modifyObject (m : TypeModel) {id : ObjectId} (f : ObjectType → ObjectType)
    {type : NodeType} (h : type ≠ .object id) : m.KeepsEntry (m.modifyObject id f) type := by
  cases type with
  | composite kind id' =>
    intro c hc
    simpa only [composite?, composites_modifyObject] using hc
  | object id' =>
    intro o ho
    have hne : id.index ≠ id'.index :=
      fun heq => h (congrArg NodeType.object (congrArg ObjectId.mk heq.symm))
    simpa only [object?, modifyObject, List.getElem?_modify_ne f _ hne] using ho

/-- Replacing one composite changes no other entry. -/
theorem keepsEntry_setComposite (m : TypeModel) {kind : CompositeKind} {id : CompositeId}
    (c : ObjectComposite) {type : NodeType} (h : type ≠ .composite kind id) :
    m.KeepsEntry (m.setComposite kind id c) type := by
  cases type with
  | object id' =>
    intro o ho
    simpa only [object?, objects_setComposite] using ho
  | composite kind' id' =>
    intro d hd
    simp only [composite?, composites_setComposite] at hd ⊢
    split
    · next heq =>
      subst heq
      have hne : id.index ≠ id'.index :=
        fun heq => h (congrArg (NodeType.composite kind') (congrArg CompositeId.mk heq.symm))
      rw [List.getElem?_set_ne hne]
      exact hd
    · exact hd

end TypeModel

namespace Resolver

section Monotone

variable {g : ShapesGraph} {n : Namer} {R : Term → Prop} {m m' : TypeModel}
variable {known known' : List Term} {p : Term × NodeType} {s : g.Member}

theorem AsExpected.mono {s : Shape} {type : NodeType} (h : AsExpected g n R m s type)
    (hretains : m.Retains m') (hentry : m.KeepsEntry m' type) : AsExpected g n R m' s type := by
  cases type with
  | object id =>
    obtain ⟨o, hobject, ho, hreads⟩ := h
    exact ⟨o, hobject, hentry o ho, hreads.mono hretains⟩
  | composite kind id =>
    obtain ⟨c, members, hcomposite, hc, hreads⟩ := h
    exact ⟨c, members, hcomposite, hentry c hc, hreads.mono hretains⟩

/-- What is settled stays settled while other entries are added and filled. -/
theorem Settled.mono (h : Settled g n R known m p s) (hretains : m.Retains m')
    (hentry : m.KeepsEntry m' p.2) (hknown : known ⊆ known') : Settled g n R known' m' p s :=
  ⟨h.member, h.buildable, h.expected.mono hretains hentry, fun t ht => hknown (h.closed t ht)⟩

end Monotone

end Resolver

end ShaclTypes
