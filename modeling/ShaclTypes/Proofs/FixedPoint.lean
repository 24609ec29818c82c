import ShaclTypes.Proofs.Identity
import ShaclTypes.Proofs.Settling
set_option autoImplicit false

/-!
# The model is a fixed point of resolution

Between calls from outside everything that is resolved is settled
(`AllSettled`).  Resolving the shapes of an entry once more then finds all that it
asks for in the model, so that it adds nothing and gives what the entry has
already: what was typed against half-built entries is what would be typed against
the finished model (`resolution_is_fixed_point`).
-/

namespace ShaclTypes

open ShaclTypes.Rdf

namespace Resolver

open ShapesGraph

variable {g : ShapesGraph} {settings : Settings} {s t : State}

/-! ## Everything is settled -/

/-- Outside of all resolutions: the state is sound, and all that is resolved is
settled. -/
structure AllSettled (g : ShapesGraph) (settings : Settings) (s : State) : Prop where
  sound : Sound (namer g settings) (Found (g := g)) [] s
  settled : ∀ p ∈ s.resolved, ∃ r, Settled g (namer g settings) (resolvableIn g .outermost)
    (s.resolved.map Prod.fst) s.model p r

theorem allSettled_empty : AllSettled g settings .empty :=
  ⟨sound_empty _ _, fun _ hp => by cases hp⟩

namespace AllSettled

theorem of_sameTypes (h : AllSettled g settings s) (hsame : s.SameTypes t) :
    AllSettled g settings t := by
  refine ⟨h.sound.of_sameTypes hsame, ?_⟩
  rw [hsame.resolved, hsame.model]
  exact h.settled

theorem log (h : AllSettled g settings s) (e : Event) : AllSettled g settings (s.log e) :=
  h.of_sameTypes ((State.SameTypes.refl s).log e)

theorem backed (h : AllSettled g settings s) {p : Term × NodeType} (hp : p ∈ s.resolved) :
    resolvableIn g .outermost p.1 := by
  obtain ⟨r, hr⟩ := h.settled p hp
  exact hr.resolvable

/-- What is owned is resolved, and so it is settled. -/
theorem of_owner? (h : AllSettled g settings s) {type : NodeType} {owner : Term}
    (howner : s.model.owner? type = some owner) :
    ∃ r, Settled g (namer g settings) (resolvableIn g .outermost) (s.resolved.map Prod.fst)
      s.model (owner, type) r :=
  h.settled _ (h.sound.listed type owner howner)

/-- An object type reads as its shape lets expect. -/
theorem of_object? (h : AllSettled g settings s) {id : ObjectId} {o : ObjectType}
    (ho : s.model.object? id = some o) :
    ∃ shape, Settled g (namer g settings) (resolvableIn g .outermost) (s.resolved.map Prod.fst)
        s.model (o.name.identifier, .object id) shape ∧
      shape.1.constraints.nodeComposition? = none ∧
      o.renumber (g.numbering s.model) =
        expectedObject g (namer g settings) (resolvableIn g .outermost) shape.1 := by
  obtain ⟨shape, hsettled⟩ := h.of_owner? (TypeModel.owner?_of_object? ho)
  obtain ⟨o', hobject, ho', hreads⟩ := hsettled.expected
  obtain rfl : o = o' := Option.some.inj (ho.symm.trans ho')
  exact ⟨shape, hsettled, hobject, hreads.now (numbering_injective h.sound)⟩

/-- A composite reads as its shape lets expect. -/
theorem of_composite? (h : AllSettled g settings s) {kind : CompositeKind} {id : CompositeId}
    {c : ObjectComposite} (hc : s.model.composite? kind id = some c) :
    ∃ shape members, Settled g (namer g settings) (resolvableIn g .outermost)
        (s.resolved.map Prod.fst) s.model (c.name.identifier, .composite kind id) shape ∧
      shape.1.constraints.nodeComposition? = some (kind, members) ∧
      c.renumber (g.numbering s.model) =
        expectedComposite g (namer g settings) (resolvableIn g .outermost) shape.1 members := by
  obtain ⟨shape, hsettled⟩ := h.of_owner? (TypeModel.owner?_of_composite? hc)
  obtain ⟨c', members, hcomposite, hc', hreads⟩ := hsettled.expected
  obtain rfl : c = c' := Option.some.inj (hc.symm.trans hc')
  exact ⟨shape, members, hsettled, hcomposite, hreads.now (numbering_injective h.sound)⟩

/-- A node shape that is resolved is answered with its entry once more. -/
theorem outcome_known (h : AllSettled g settings s) {shape : g.Member}
    (hknown : shape.1.identifier ∈ s.resolved.map Prod.fst) :
    ∃ type, (shape.1.identifier, type) ∈ s.resolved ∧
      outcome (resolveNodeShape g settings shape) s =
        (.ok type, s.log (.known shape.1.identifier)) := by
  obtain ⟨⟨identifier, type⟩, hp, heq⟩ := List.mem_map.1 hknown
  have hlisted : (shape.1.identifier, type) ∈ s.resolved := by
    rw [← heq]
    exact hp
  refine ⟨type, hlisted, outcome_resolveNodeShape_of_resolved ?_⟩
  rw [State.resolved?, ← ledger_nil s, h.sound.lookup_eq_some]
  exact hlisted

theorem ensures_known (h : AllSettled g settings s) {shape : g.Member} :
    Ensures (fun t => t = s) (resolveNodeShape g settings shape)
      (fun _ t => shape.1.identifier ∈ s.resolved.map Prod.fst → s.SameTypes t)
      (fun _ _ => True) := by
  rintro t rfl
  cases hrun : outcome (resolveNodeShape g settings shape) t with
  | mk result u =>
    cases result with
    | error e => trivial
    | ok type =>
      intro hmem
      obtain ⟨type', -, hrun'⟩ := h.outcome_known hmem
      rw [hrun'] at hrun
      obtain ⟨-, rfl⟩ := Prod.mk.inj hrun
      exact (State.SameTypes.refl t).log _

/-- Resolving a node shape leaves everything settled.  It ends well exactly if the
node shape can be resolved, and adds nothing but what the node shape leads to;
if the node shape is resolved already, it adds nothing. -/
theorem ensures_nodeShape (h : AllSettled g settings s) {shape : g.Member}
    (hfound : Found shape) :
    Ensures (fun t => t = s) (resolveNodeShape g settings shape)
      (fun type t => AllSettled g settings t ∧ s.Extends t ∧
        resolvableIn g .outermost shape.1.identifier ∧
        (shape.1.identifier, type) ∈ t.resolved ∧
        (∀ p ∈ t.resolved, p ∉ s.resolved → Leads g (namer g settings)
          (resolvableIn g .outermost) shape.1.identifier p.1) ∧
        (shape.1.identifier ∈ s.resolved.map Prod.fst → s.SameTypes t))
      (fun _ t => s.SameTypes t ∧ ¬resolvableIn g .outermost shape.1.identifier) := by
  have hsound := nodeShape_sound (fun _ h => h) .outermost shape hfound s h.sound
  have hsettles := nodeShape_settles .outermost shape hfound s h.sound fun _ hp => h.backed hp
  refine ((hsound.and hsettles).and h.ensures_known).mono (fun _ h => h) ?_ (fun _ _ h => h.1)
  intro type t hend
  obtain ⟨⟨⟨hsound, hext, hlisted⟩, hresolvable, hsince⟩, hsame⟩ := hend
  refine ⟨⟨hsound, fun p hp => ?_⟩, hext, hresolvable, hlisted,
    fun p hp hnew => (hsince p hp hnew).2, hsame⟩
  by_cases hold : p ∈ s.resolved
  · obtain ⟨r, hr⟩ := h.settled p hold
    refine ⟨r, hr.mono hext.model.retains (hext.model.keepsEntry _) fun a ha => ?_⟩
    obtain ⟨q, hq, rfl⟩ := List.mem_map.1 ha
    exact List.mem_map.2 ⟨q, hext.mem_resolved hq, rfl⟩
  · exact (hsince p hp hold).1

theorem keeps_nodeShape {shape : g.Member} (hfound : Found shape) :
    Keeps (AllSettled g settings) (resolveNodeShape g settings shape) := by
  refine Ensures.of_forall fun s hs => (hs.ensures_nodeShape hfound).mono (fun _ h => h) ?_ ?_
  · exact fun _ _ ht => ht.1
  · exact fun _ _ ht => hs.of_sameTypes ht.1

theorem keeps_property (q : g.Member) :
    Keeps (AllSettled g settings) (resolveProperty g settings q) := by
  unfold resolveProperty
  rw [resolveProperty_eq]
  refine Resolver.keeps_property (keeps_inlineType (fun r hr => keeps_nodeShape hr) ?_ _ _ _)
  exact fun _ e hs => hs.log e

end AllSettled

/-- Calls for node shapes that the graph has under their identifiers, and for any
property shapes, leave everything settled. -/
theorem allSettled_afterCalls (calls : List (Call g))
    (hcalls : ∀ shape, .nodeShape shape ∈ calls → Found shape) :
    AllSettled g settings (afterCalls settings calls) := by
  refine afterCalls_induction allSettled_empty calls fun call hcall s hs => ?_
  cases call with
  | nodeShape shape => exact (AllSettled.keeps_nodeShape (hcalls shape hcall)).apply hs
  | property shape => exact (AllSettled.keeps_property shape).apply hs

/-! ## Resolving once more -/

/-- A property shape whose needs are all resolved adds nothing, and has the
expected property or none. -/
theorem AllSettled.ensures_property (h : AllSettled g settings s) {q : g.Member}
    (hasked : ∀ a ∈ asked (namer g settings) (resolvableIn g .outermost) q,
      a ∈ s.resolved.map Prod.fst) :
    Ensures (fun t => t = s) (resolveProperty g settings q)
      (fun p t => s.SameTypes t ∧
        ∃ p', expectedProperty? (namer g settings) (resolvableIn g .outermost) q = some p' ∧
          ReadsAs g s.model Property.renumber p p')
      (fun _ t => s.SameTypes t ∧
        expectedProperty? (namer g settings) (resolvableIn g .outermost) q = none) := by
  -- as long as only what is resolved has been asked for, nothing has changed
  let J : List Term → State → Prop := fun soFar t =>
    AllSettled g settings t ∧
      ((∀ a ∈ soFar, a ∈ s.resolved.map Prod.fst) → s.SameTypes t)
  have htracks : Tracks (namer g settings) (resolvableIn g .outermost) J
      (resolveNodeShape g settings) := by
    refine ⟨fun _ t ht => ⟨[], ht.1.sound⟩, fun _ t e ht =>
      ⟨ht.1.log e, fun ha => (ht.2 ha).log e⟩, ?_⟩
    intro r hr soFar t hnow
    obtain ⟨ht, hsame⟩ := hnow
    refine (ht.ensures_nodeShape hr).mono (fun _ h => h) ?_ ?_
    · intro type u hend
      obtain ⟨hu, hext, hresolvable, hlisted, -, hknown⟩ := hend
      refine ⟨hresolvable, ⟨hu, fun ha => ?_⟩, hext.model.retains,
        hu.sound.readsAs_slot hr hlisted⟩
      have hst : s.SameTypes t := hsame fun a ha' => ha a (List.mem_cons_of_mem _ ha')
      have hmem : r.1.identifier ∈ t.resolved.map Prod.fst := by
        rw [hst.resolved]
        exact ha _ List.mem_cons_self
      exact hst.trans (hknown hmem)
    · intro e u hend
      obtain ⟨htu, hresolvable⟩ := hend
      exact ⟨hresolvable, ⟨ht.of_sameTypes htu, fun ha => (hsame ha).trans htu⟩,
        htu.extends.model.retains⟩
  have hstart : J [] s := ⟨h, fun _ => .refl s⟩
  unfold resolveProperty
  rw [resolveProperty_eq]
  refine (htracks.ensures_property q hstart).mono (fun _ h => h) ?_ ?_
  · intro p t hend
    obtain ⟨⟨-, hsame⟩, p', hp', hreads⟩ := hend
    refine ⟨hsame hasked, p', hp', ?_⟩
    rw [← (hsame hasked).model]
    exact hreads
  · intro e t hend
    obtain ⟨⟨-, hsame⟩, hp'⟩ := hend
    exact ⟨hsame hasked, hp'⟩

/-! ## The fixed point -/

/-- What resolving a property shape in a state would give. -/
def propertyAgain? (settings : Settings) (s : State) (q : g.Member) : Option Property :=
  (outcome (resolveProperty g settings q) s).1.toOption

/-- The object type that resolving a member of a composite in a state would give. -/
def memberAgain? (g : ShapesGraph) (settings : Settings) (s : State) (member : Term) :
    Option ObjectId :=
  (g.member? member).bind fun r =>
    (outcome (resolveNodeShape g settings r) s).1.toOption.bind NodeType.object?

/-- A property shape that asks for nothing new gives the expected property and
changes nothing. -/
theorem AllSettled.propertyAgain? (h : AllSettled g settings s) {q : g.Member}
    (hasked : ∀ a ∈ asked (namer g settings) (resolvableIn g .outermost) q,
      a ∈ s.resolved.map Prod.fst) :
    (Resolver.propertyAgain? settings s q).map (Property.renumber (g.numbering s.model)) =
        expectedProperty? (namer g settings) (resolvableIn g .outermost) q ∧
      s.SameTypes (outcome (resolveProperty g settings q) s).2 := by
  have hspec := h.ensures_property hasked
  unfold Resolver.propertyAgain?
  cases hrun : outcome (resolveProperty g settings q) s with
  | mk result t =>
    cases result with
    | ok p =>
      obtain ⟨hsame, p', hp', hreads⟩ := hspec.ok rfl hrun
      refine ⟨?_, hsame⟩
      rw [hp', ← hreads.now (numbering_injective h.sound)]
      rfl
    | error e =>
      obtain ⟨hsame, hp'⟩ := hspec.error rfl hrun
      exact ⟨hp'.symm, hsame⟩

/-- A member that is resolved if it can be gives its slot and changes nothing. -/
theorem AllSettled.memberAgain? (h : AllSettled g settings s) {member : Term} {r : g.Member}
    (hr : g.member? member = some r)
    (hknown : resolvableIn g .outermost member → member ∈ s.resolved.map Prod.fst) :
    (Resolver.memberAgain? g settings s member).map (g.numbering s.model).object =
        g.memberSlot (resolvableIn g .outermost) member ∧
      s.SameTypes (outcome (resolveNodeShape g settings r) s).2 := by
  have hfound := found_of_member? hr
  have hidentifier : r.1.identifier = member := identifier_of_member? hr
  unfold Resolver.memberAgain?
  rw [hr, Option.bind_some]
  by_cases hresolvable : resolvableIn g .outermost member
  · have hlisted : r.1.identifier ∈ s.resolved.map Prod.fst := hidentifier ▸ hknown hresolvable
    obtain ⟨type, hlisted, hrun⟩ := h.outcome_known hlisted
    have hreads := (h.sound.readsAs_slot hfound hlisted).now (numbering_injective h.sound)
    rw [memberSlot_of_found hresolvable hr, hrun, ← hreads, NodeType.object?_renumber]
    exact ⟨rfl, (State.SameTypes.refl s).log _⟩
  · rw [memberSlot_of_not hresolvable]
    have hspec := h.ensures_nodeShape hfound
    cases hrun : outcome (resolveNodeShape g settings r) s with
    | mk result t =>
      cases result with
      | ok type =>
        have hok := hspec.ok rfl hrun
        exact absurd (hidentifier ▸ hok.2.2.1) hresolvable
      | error e => exact ⟨rfl, (hspec.error rfl hrun).1⟩

/-- The properties of an object type are what the property shapes of its shape give
once more. -/
theorem AllSettled.object_fixed (h : AllSettled g settings s) {id : ObjectId} {o : ObjectType}
    (ho : s.model.object? id = some o) :
    ∃ shape properties, g.member? o.name.identifier = some shape ∧
      g.propertyShapes shape.1 = .ok properties ∧
      o.properties = properties.filterMap (Resolver.propertyAgain? settings s) ∧
      ∀ q ∈ properties, s.SameTypes (outcome (resolveProperty g settings q) s).2 := by
  have hinj : (g.numbering s.model).Injective := numbering_injective h.sound
  obtain ⟨shape, ⟨hmember, hbuildable, -, hclosed⟩, hobject, hreads⟩ := h.of_object? ho
  unfold Buildable at hbuildable
  rw [hobject] at hbuildable
  obtain ⟨-, properties, hproperties⟩ := hbuildable
  have hagain : ∀ q ∈ properties,
      (Resolver.propertyAgain? settings s q).map (Property.renumber (g.numbering s.model)) =
          expectedProperty? (namer g settings) (resolvableIn g .outermost) q ∧
        s.SameTypes (outcome (resolveProperty g settings q) s).2 := by
    intro q hq
    refine h.propertyAgain? fun a ha => hclosed a ?_
    unfold Needs
    rw [hobject]
    exact .inr ⟨properties, hproperties, q, hq, ha⟩
  refine ⟨shape, properties, hmember, hproperties, ?_, fun q hq => (hagain q hq).2⟩
  have hfields : o.properties.map (Property.renumber (g.numbering s.model)) =
      properties.filterMap (expectedProperty? (namer g settings) (resolvableIn g .outermost)) := by
    have hread := congrArg ObjectType.properties hreads
    simpa only [ObjectType.renumber, expectedObject, typedObject, hproperties, Except.toOption,
      Option.getD_some] using hread
  refine (Property.renumber_injective hinj).list_map ?_
  rw [hfields, List.map_filterMap]
  exact List.filterMap_congr fun q hq => (hagain q hq).1.symm

/-- The members of a composite are what the members of its shape give once more. -/
theorem AllSettled.composite_fixed (h : AllSettled g settings s) {kind : CompositeKind}
    {id : CompositeId} {c : ObjectComposite} (hc : s.model.composite? kind id = some c) :
    ∃ shape members, g.member? c.name.identifier = some shape ∧
      shape.1.constraints.nodeComposition? = some (kind, members) ∧
      c.members = addAll [] (members.filterMap (Resolver.memberAgain? g settings s)) ∧
      ∀ member ∈ members, ∀ r, g.member? member = some r →
        s.SameTypes (outcome (resolveNodeShape g settings r) s).2 := by
  have hinj : (g.numbering s.model).Injective := numbering_injective h.sound
  obtain ⟨shape, members, ⟨hmember, -, -, hclosed⟩, hcomposite, hreads⟩ := h.of_composite? hc
  have hagain : ∀ member ∈ members, ∀ r, g.member? member = some r →
      (Resolver.memberAgain? g settings s member).map (g.numbering s.model).object =
          g.memberSlot (resolvableIn g .outermost) member ∧
        s.SameTypes (outcome (resolveNodeShape g settings r) s).2 := by
    intro member hin r hr
    refine h.memberAgain? hr fun hresolvable => hclosed member ?_
    unfold Needs
    rw [hcomposite]
    exact ⟨hin, hresolvable, by rw [hr]; rfl⟩
  refine ⟨shape, members, hmember, hcomposite, ?_, fun member hin r hr => (hagain member hin r hr).2⟩
  have hfields : c.members.map (g.numbering s.model).object =
      g.memberSlots (resolvableIn g .outermost) members :=
    congrArg ObjectComposite.members hreads
  refine hinj.object.list_map ?_
  rw [hfields, map_addAll hinj.object, List.map_filterMap]
  refine congrArg (addAll []) (List.filterMap_congr fun member hin => ?_)
  cases hr : g.member? member with
  | none =>
    rw [memberSlot_of_unknown hr, Resolver.memberAgain?, hr]
    rfl
  | some r => exact (hagain member hin r hr).1.symm

/-- After every sequence of calls, in which node shapes are called for as the
graph has them under their identifiers: the properties of an object type are what
the property shapes of its shape give when they are resolved once more, in order
and without those that fail; the members of a composite are the object types that
the members of its shape give when they are resolved once more, each once; and
resolving any of these once more changes neither the model nor what is resolved.

The graph leads to no shape that a later one with the same identifier hides.  A call for
such a shape gives the identifier an entry all the same, and then a property can resolve
that has been dropped for want of one, as the yards below show. -/
theorem resolution_is_fixed_point (settings : Settings) (calls : List (Call g))
    (hcalls : ∀ shape, .nodeShape shape ∈ calls → Found shape) :
    let s := afterCalls settings calls
    (∀ id o, s.model.object? id = some o →
      ∃ shape properties, g.member? o.name.identifier = some shape ∧
        g.propertyShapes shape.1 = .ok properties ∧
        o.properties = properties.filterMap (propertyAgain? settings s) ∧
        ∀ q ∈ properties, s.SameTypes (outcome (resolveProperty g settings q) s).2) ∧
    (∀ kind id c, s.model.composite? kind id = some c →
      ∃ shape members, g.member? c.name.identifier = some shape ∧
        shape.1.constraints.nodeComposition? = some (kind, members) ∧
        c.members = addAll [] (members.filterMap (memberAgain? g settings s)) ∧
        ∀ member ∈ members, ∀ r, g.member? member = some r →
          s.SameTypes (outcome (resolveNodeShape g settings r) s).2) := by
  intro s
  have h : AllSettled g settings s := allSettled_afterCalls calls hcalls
  exact ⟨fun _ _ ho => h.object_fixed ho, fun _ _ _ hc => h.composite_fixed hc⟩

/-! A walker has a stride and walks a dog, which follows the walker; that there is a lead
cannot be told, since it has no path.  Whoever visits is one of the two, or a ghost, which
there is no shape for. -/

/-- A property shape without a path. -/
def lead : Shape := { identifier := .blank "lead" }

/-- How far a walker goes. -/
def stride : Shape where
  identifier := .blank "stride"
  path := some (.predicate ⟨"urn:strides"⟩)
  constraints := { datatype := some Vocabulary.xsd.integer }

/-- What a walker walks. -/
def along : Shape where
  identifier := .blank "along"
  path := some (.predicate ⟨"urn:walks"⟩)
  constraints := { nodes := [.blank "dog"] }

/-- Walkers. -/
def walker : Shape where
  identifier := .blank "walker"
  constraints := { properties := [lead.identifier, stride.identifier, along.identifier] }

/-- What a dog follows. -/
def heel : Shape where
  identifier := .blank "heel"
  path := some (.predicate ⟨"urn:follows"⟩)
  constraints := { nodes := [walker.identifier] }

/-- Dogs. -/
def dog : Shape where
  identifier := .blank "dog"
  constraints := { properties := [heel.identifier] }

/-- Visitors. -/
def visitor : Shape where
  identifier := .blank "visitor"
  constraints := { anyOf := [walker.identifier, .blank "ghost", dog.identifier, walker.identifier] }

/-- The graph of visitors. -/
def park : ShapesGraph where
  shapes := [visitor, walker, lead, stride, along, dog, heel]
  declared := [visitor.identifier, walker.identifier, dog.identifier]
  hierarchy := .empty
  prefixes := .empty

/-- Visitors, in their graph. -/
def visitorMember : park.Member := ⟨visitor, List.mem_cons_self⟩

/-- The property shapes of walkers, in their graph. -/
def walkerProperties : List park.Member :=
  [⟨lead, by simp [park]⟩, ⟨stride, by simp [park]⟩, ⟨along, by simp [park]⟩]

theorem resolution_is_fixed_point_visitor :
    let s := afterCalls .standard [.nodeShape visitorMember]
    ∃ o c, s.model.object? ⟨0⟩ = some o ∧
      o.properties.map Property.path = [⟨"urn:strides"⟩, ⟨"urn:walks"⟩] ∧
      o.properties = walkerProperties.filterMap (propertyAgain? .standard s) ∧
      s.model.composite? .union ⟨0⟩ = some c ∧ c.members = [⟨0⟩, ⟨1⟩] ∧
      c.members =
        addAll [] (visitor.constraints.anyOf.filterMap (memberAgain? park .standard s)) := by
  intro s
  have hrun : (s.model.object? ⟨0⟩).map (fun o =>
        (o.name.identifier, o.properties.map Property.path)) =
          some (walker.identifier, [⟨"urn:strides"⟩, ⟨"urn:walks"⟩]) ∧
      (s.model.composite? .union ⟨0⟩).map (fun c => (c.name.identifier, c.members)) =
        some (visitor.identifier, [⟨0⟩, ⟨1⟩]) := by decide +kernel
  have hcalls : ∀ shape, Call.nodeShape shape ∈ [Call.nodeShape visitorMember] → Found shape := by
    intro shape hshape
    obtain rfl := Call.nodeShape.inj (List.mem_singleton.1 hshape)
    rfl
  obtain ⟨hobjects, hcomposites⟩ := resolution_is_fixed_point .standard _ hcalls
  obtain ⟨o, ho, hfields⟩ := Option.map_eq_some_iff.1 hrun.1
  obtain ⟨c, hc, hmembers⟩ := Option.map_eq_some_iff.1 hrun.2
  obtain ⟨hname, hpaths⟩ := Prod.mk.inj hfields
  obtain ⟨hname', hmembers⟩ := Prod.mk.inj hmembers
  obtain ⟨shape, properties, hmember, hproperties, hfixed, -⟩ := hobjects _ o ho
  rw [hname] at hmember
  obtain rfl : ⟨walker, by simp [park]⟩ = shape := Option.some.inj hmember
  obtain rfl : walkerProperties = properties := Except.ok.inj hproperties
  obtain ⟨shape, members, hmember, hcomposition, hfixed', -⟩ := hcomposites _ _ c hc
  rw [hname'] at hmember
  obtain rfl : visitorMember = shape := Option.some.inj hmember
  obtain ⟨-, rfl⟩ := Prod.mk.inj (Option.some.inj hcomposition)
  exact ⟨o, c, ho, hpaths, hfixed, hc, hmembers, hfixed'⟩

/-! What a gate is, is said twice: first that it is an object, and then that it is a yard
only, which is too little for a composite.  An entry is a gate. -/

/-- Gates as they are said to be first, which nothing in their graph leads to. -/
def hiddenGate : Shape := { identifier := .blank "gate" }

/-- Gates. -/
def gate : Shape where
  identifier := .blank "gate"
  constraints := { allOf := [.blank "yard"] }

/-- Where a yard is entered. -/
def entry : Shape where
  identifier := .blank "entry"
  path := some (.predicate ⟨"urn:entry"⟩)
  constraints := { nodes := [gate.identifier] }

/-- Yards. -/
def yard : Shape where
  identifier := .blank "yard"
  constraints := { properties := [entry.identifier] }

/-- The graph of yards. -/
def yards : ShapesGraph where
  shapes := [hiddenGate, gate, entry, yard]
  declared := [gate.identifier, yard.identifier]
  hierarchy := .empty
  prefixes := .empty

/-- Yards, in their graph. -/
def yardMember : yards.Member := ⟨yard, by simp [yards]⟩

/-- Where a yard is entered, in its graph. -/
def entryMember : yards.Member := ⟨entry, by simp [yards]⟩

/-- The call for a shape that is hidden by a later one makes up for what this one cannot
give: a yard has no entry, since a gate cannot be resolved when the yard is, and has one
when it is asked again after the call. -/
theorem hidden_shape_revives_property :
    let s := afterCalls .standard
      [.nodeShape yardMember, .nodeShape ⟨hiddenGate, List.mem_cons_self⟩]
    ∃ o, s.model.object? ⟨0⟩ = some o ∧ yards.member? o.name.identifier = some yardMember ∧
      yards.propertyShapes yardMember.1 = .ok [entryMember] ∧
      o.properties ≠ [entryMember].filterMap (propertyAgain? .standard s) := by
  intro s
  have hrun : (s.model.object? ⟨0⟩).map (fun o => (o.name.identifier, o.properties.length)) =
        some (yard.identifier, 0) ∧
      ([entryMember].filterMap (propertyAgain? .standard s)).length = 1 := by decide +kernel
  obtain ⟨o, ho, hfields⟩ := Option.map_eq_some_iff.1 hrun.1
  obtain ⟨hname, hnone⟩ := Prod.mk.inj hfields
  refine ⟨o, ho, hname ▸ rfl, rfl, fun heq => ?_⟩
  rw [heq, hrun.2] at hnone
  cases hnone

end Resolver

end ShaclTypes
