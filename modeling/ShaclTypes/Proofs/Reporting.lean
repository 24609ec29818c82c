import ShaclTypes.Proofs.LoadedGraph
import ShaclTypes.Proofs.WholeGraph
set_option autoImplicit false

/-!
# Properties that are left out

Whenever a node shape is built, each of its property shapes gives a property or an event
which tells that it was left out.  A failure takes properties back but never an event, so
what an event tells of an earlier attempt does no harm: what counts is that of an object
type that is resolved, every property shape is accounted for (`Reported`).  This is
preserved by all steps, since later states have the properties of the entries that they
keep (`Later`).

Together with the fixed point it gives that no property is lost silently and that none is
made up (`properties_kept_or_reported`).
-/

namespace ShaclTypes

open ShaclTypes.Rdf

namespace State

/-- The object types of the first state are in the second, with all their properties and
perhaps more, and so are the events. -/
structure Later (s t : State) : Prop where
  objects : ∀ id o, s.model.object? id = some o →
    ∃ o', t.model.object? id = some o' ∧ o.properties ⊆ o'.properties
  events : s.events.toList ⊆ t.events.toList

/-- The object type with a number has a property from the property shape, or an event
tells that the property shape was left out of the object type of the owner. -/
def Told (owner : Term) (id : ObjectId) (q : Term) (s : State) : Prop :=
  ∃ o, s.model.object? id = some o ∧
    ((∃ p ∈ o.properties, p.name.identifier = q) ∨
      ∃ e, Event.propertyDropped owner q e ∈ s.events.toList)

variable {s t u : State}

namespace Later

theorem refl (s : State) : s.Later s := ⟨fun _ o ho => ⟨o, ho, List.Subset.refl _⟩,
  List.Subset.refl _⟩

theorem trans (h : s.Later t) (h' : t.Later u) : s.Later u := by
  refine ⟨fun id o ho => ?_, List.Subset.trans h.events h'.events⟩
  obtain ⟨o', ho', hsub⟩ := h.objects id o ho
  obtain ⟨o'', ho'', hsub'⟩ := h'.objects id o' ho'
  exact ⟨o'', ho'', List.Subset.trans hsub hsub'⟩

theorem log (h : s.Later t) (event : Event) : s.Later (t.log event) := by
  refine h.trans ⟨fun _ o ho => ⟨o, ho, List.Subset.refl _⟩, ?_⟩
  simp [State.log]

/-- The model is replaced by one with the same object types, or more. -/
theorem grow (h : s.Later t) {m : TypeModel} (hm : t.model.objects <+: m.objects) :
    s.Later { t with model := m } :=
  h.trans ⟨fun _ o ho => ⟨o, TypeModel.getElem?_of_prefix hm ho, List.Subset.refl _⟩,
    List.Subset.refl _⟩

/-- An object type is changed, and no property of it is dropped. -/
theorem modifyObject (h : s.Later t) {id : ObjectId} {f : ObjectType → ObjectType}
    (hf : ∀ o, o.properties ⊆ (f o).properties) :
    s.Later { t with model := t.model.modifyObject id f } := by
  refine h.trans ⟨fun other o ho => ?_, List.Subset.refl _⟩
  have ho' : t.model.objects[other.index]? = some o := ho
  simp only [TypeModel.object?, TypeModel.modifyObject, List.getElem?_modify, ho',
    Option.map_eq_map, Option.map_some, Option.some.injEq, exists_eq_left']
  split
  · exact hf o
  · exact List.Subset.refl _

/-- Going back to where a step began keeps what was there. -/
theorem rollback (h : s.Later t) : s.Later (t.rollback s.model.extent) := by
  refine ⟨fun id o ho => ?_, h.events⟩
  obtain ⟨o', ho', hsub⟩ := h.objects id o ho
  have hlt : id.index < s.model.objects.length := (List.getElem?_eq_some_iff.1 ho).1
  refine ⟨o', ?_, hsub⟩
  simp only [State.rollback, TypeModel.truncate, TypeModel.extent, TypeModel.object?]
  rw [List.getElem?_take_of_lt hlt]
  exact ho'

end Later

theorem Told.later {owner q : Term} {id : ObjectId} (h : s.Told owner id q) (hlater : s.Later t) :
    t.Told owner id q := by
  obtain ⟨o, ho, htold⟩ := h
  obtain ⟨o', ho', hsub⟩ := hlater.objects id o ho
  refine ⟨o', ho', htold.imp ?_ ?_⟩
  · rintro ⟨p, hp, hname⟩
    exact ⟨p, hsub hp, hname⟩
  · rintro ⟨e, he⟩
    exact ⟨e, hlater.events he⟩

end State

namespace Resolver

open ShapesGraph State

variable {g : ShapesGraph} {s t u : State}

/-- Every property shape of an object type that is resolved is accounted for. -/
def Reported (g : ShapesGraph) (s : State) : Prop :=
  ∀ identifier id, (identifier, NodeType.object id) ∈ s.resolved →
    ∀ shape properties, g.member? identifier = some shape →
      g.propertyShapes shape.1 = .ok properties →
        ∀ q ∈ properties, s.Told identifier id q.1.identifier

/-- A later state in which everything is accounted for. -/
def ReportedSince (g : ShapesGraph) (s t : State) : Prop := Reported g t ∧ s.Later t

theorem Reported.later (h : Reported g s) (hresolved : t.resolved = s.resolved)
    (hlater : s.Later t) : Reported g t := by
  intro identifier id hmem shape properties hmember hproperties q hq
  exact (h identifier id (hresolved ▸ hmem) shape properties hmember hproperties q hq).later hlater

/-- What is dropped need not be accounted for any more. -/
theorem Reported.rollback (h : Reported g t) (e : Extent) : Reported g (t.rollback e) := by
  intro identifier id hmem shape properties hmember hproperties q hq
  obtain ⟨hmem, hheld⟩ := List.mem_filter.1 hmem
  have hlt : id.index < e.objects := of_decide_eq_true hheld
  obtain ⟨o, ho, htold⟩ := h identifier id hmem shape properties hmember hproperties q hq
  refine ⟨o, ?_, htold⟩
  simp only [State.rollback, TypeModel.truncate, TypeModel.object?]
  rw [List.getElem?_take_of_lt hlt]
  exact ho

namespace ReportedSince

theorem refl (h : Reported g s) : ReportedSince g s s := ⟨h, .refl s⟩

theorem trans (h : ReportedSince g s t) (h' : ReportedSince g t u) : ReportedSince g s u :=
  ⟨h'.1, h.2.trans h'.2⟩

/-- What is later and resolves nothing else accounts for as much. -/
theorem later (h : ReportedSince g s t) (hresolved : u.resolved = t.resolved)
    (hlater : t.Later u) : ReportedSince g s u :=
  ⟨h.1.later hresolved hlater, h.2.trans hlater⟩

theorem log (h : ReportedSince g s t) (event : Event) : ReportedSince g s (t.log event) :=
  h.later rfl ((Later.refl t).log event)

theorem grow (h : ReportedSince g s t) {m : TypeModel}
    (hm : t.model.objects <+: m.objects) : ReportedSince g s { t with model := m } :=
  h.later rfl ((Later.refl t).grow hm)

theorem modifyObject (h : ReportedSince g s t) {id : ObjectId} {f : ObjectType → ObjectType}
    (hf : ∀ o, o.properties ⊆ (f o).properties) :
    ReportedSince g s { t with model := t.model.modifyObject id f } :=
  h.later rfl ((Later.refl t).modifyObject hf)

end ReportedSince

/-! ## Building -/

/-- The step accounts for every property shape of what it resolves, wherever it starts. -/
def Accounts {α : Type} (g : ShapesGraph) (step : Resolver α) : Prop :=
  ∀ s, Keeps (ReportedSince g s) step

theorem accounts_of_ensures {α : Type} {step : Resolver α}
    (h : ∀ t, Reported g t → Ensures (fun u => u = t) step (fun _ => ReportedSince g t)
      (fun _ => ReportedSince g t)) : Accounts g step := fun _ =>
  Ensures.of_forall fun t ht => (h t ht.1).mono (fun _ h => h) (fun _ _ hu => ht.trans hu)
    fun _ _ hu => ht.trans hu

theorem Accounts.ensures {α : Type} {step : Resolver α} (h : Accounts g step)
    (ht : Reported g t) : Ensures (fun u => u = t) step (fun _ => ReportedSince g t)
      (fun _ => ReportedSince g t) :=
  (h t).mono (by
    rintro u rfl
    exact .refl ht) (fun _ _ h => h) fun _ _ h => h

section Building

variable {n : Namer} {shape : g.Member} {resolve : NodeResolver g} {id : ObjectId}

/-- A property has the name of its property shape and the predicate that is its path. -/
theorem ensures_property_fields (before : State → Prop) (typer : ValueTyper g) (q : g.Member) :
    Ensures before (property n typer q)
      (fun p _ => p.name.identifier = q.1.identifier ∧ q.1.path = some (.predicate p.path))
      (fun _ _ => True) := by
  unfold property
  split
  · exact ensures_throw fun _ _ => trivial
  · next path hpath =>
    split
    · exact ensures_throw fun _ _ => trivial
    · next predicate hpredicate =>
      have htyper : Ensures before (typer {} q) (fun _ _ => True) (fun _ _ => True) := by
        intro s _
        split <;> trivial
      refine htyper.bind fun type => ensures_pure fun _ _ => ⟨rfl, ?_⟩
      rw [hpath, Path.predicate?_eq_some.1 hpredicate]

/-- The object type with a number is there, and some property shapes are accounted for. -/
structure ToldSoFar (shape : g.Member) (id : ObjectId) (done : List g.Member) (s t : State) :
    Prop where
  since : ReportedSince g s t
  present : ∃ o, t.model.object? id = some o
  told : ∀ q ∈ done, t.Told shape.1.identifier id q.1.identifier

namespace ToldSoFar

variable {done : List g.Member} {q : g.Member}

theorem later (h : ToldSoFar shape id done s t) (hu : ReportedSince g t u) :
    ToldSoFar shape id done s u := by
  refine ⟨h.since.trans hu, ?_, fun q hq => (h.told q hq).later hu.2⟩
  obtain ⟨o, ho⟩ := h.present
  obtain ⟨o', ho', -⟩ := hu.2.objects id o ho
  exact ⟨o', ho'⟩

theorem concat (h : ToldSoFar shape id done s t)
    (hq : t.Told shape.1.identifier id q.1.identifier) :
    ToldSoFar shape id (done ++ [q]) s t := by
  refine ⟨h.since, h.present, fun q' hq' => ?_⟩
  rcases List.mem_append.1 hq' with hdone | hlast
  · exact h.told q' hdone
  · exact List.mem_singleton.1 hlast ▸ hq

/-- The property of a property shape is added. -/
theorem add (h : ToldSoFar shape id done s t) {p : Property}
    (hname : p.name.identifier = q.1.identifier) :
    ToldSoFar shape id (done ++ [q]) s { t with
      model := t.model.modifyObject id fun o => { o with properties := o.properties ++ [p] } } := by
  have hlater : ReportedSince g t { t with
      model := t.model.modifyObject id fun o => { o with properties := o.properties ++ [p] } } :=
    (ReportedSince.refl h.since.1).modifyObject fun _ => List.subset_append_left _ _
  refine (h.later hlater).concat ?_
  obtain ⟨o, ho⟩ := h.present
  have ho' : t.model.objects[id.index]? = some o := ho
  refine ⟨{ o with properties := o.properties ++ [p] }, ?_, .inl ⟨p, by simp, hname⟩⟩
  simp only [TypeModel.object?, TypeModel.modifyObject, List.getElem?_modify_eq, ho',
    Option.map_eq_map, Option.map_some]

/-- That the property shape is left out is reported. -/
theorem drop (h : ToldSoFar shape id done s t) (e : ResolutionError) :
    ToldSoFar shape id (done ++ [q]) s
      (t.log (.propertyDropped shape.1.identifier q.1.identifier e)) := by
  refine (h.later ((ReportedSince.refl h.since.1).log _)).concat ?_
  obtain ⟨o, ho⟩ := h.present
  exact ⟨o, ho, .inr ⟨e, by simp [State.log]⟩⟩

end ToldSoFar

variable (hresolve : ∀ r, Found r → Accounts g (resolve r))
include hresolve

theorem accounts_property (q : g.Member) :
    Accounts g (property n (inlineType resolve []) q) := fun s =>
  keeps_property <|
    keeps_inlineType (fun r hr => hresolve r hr s) (fun _ event h => h.log event) _ _ _

/-- One more property shape has its turn. -/
theorem ensures_addProperty_told {done : List g.Member} {q : g.Member} :
    Ensures (ToldSoFar shape id done s) (addProperty n shape.1 id (inlineType resolve []) q)
      (fun _ => ToldSoFar shape id (done ++ [q]) s) (fun _ => ReportedSince g s) := by
  refine Ensures.of_forall fun t ht => ?_
  have hproperty := ((accounts_property hresolve q).ensures ht.since.1).and
    (ensures_property_fields (n := n) _ (inlineType resolve []) q)
  refine hproperty.attempt.bind fun result => ?_
  cases result with
  | ok p => exact ensures_modify fun u hu => (ht.later hu.1).add hu.2.1
  | error e => exact ensures_report fun u hu => (ht.later hu.1).drop e

theorem accounts_linkRelatives : Accounts g (linkRelatives shape.1 id resolve) := by
  intro s
  have hrelatives : ∀ kinship,
      Keeps (ReportedSince g s) (resolveRelatives shape.1 kinship resolve) := fun kinship =>
    keeps_resolveRelatives fun r hr => hresolve r (found_of_mem_relatives hr) s
  refine (hrelatives _).bind fun _ => (hrelatives _).bind fun _ => ?_
  refine (hrelatives _).bind fun _ => (hrelatives _).bind fun _ => ?_
  exact ensures_modify fun t ht => ht.modifyObject fun _ => List.Subset.refl _

omit hresolve in
theorem accounts_detectList : Accounts g (detectList g shape.1 id) := by
  intro s
  refine ensures_get_bind fun t ht => ?_
  split
  · exact ensures_pure fun u hu => hu ▸ ht
  · have hreport : Ensures (fun u => u = t) (report (.listDetected shape.1.identifier))
        (fun _ => ReportedSince g s) (fun _ => ReportedSince g s) :=
      ensures_report fun u hu => hu ▸ ht.log _
    exact hreport.bind fun _ =>
      ensures_modify fun u hu => hu.modifyObject fun _ => List.Subset.refl _

/-- Filling an object type accounts for all its property shapes. -/
theorem ensures_fillObject_told :
    Ensures (ToldSoFar shape id [] s) (fillObject n shape.1 id resolve (inlineType resolve []))
      (fun _ t => ∃ properties, g.propertyShapes shape.1 = .ok properties ∧
        ToldSoFar shape id properties s t)
      (fun _ => ReportedSince g s) := by
  have hkeeps : ∀ {done : List g.Member} {step : Resolver Unit}, Accounts g step →
      Ensures (ToldSoFar shape id done s) step (fun _ => ToldSoFar shape id done s)
        (fun _ => ReportedSince g s) := fun hstep =>
    Ensures.of_forall fun t ht => (hstep.ensures ht.since.1).mono (fun _ h => h)
      (fun _ _ hu => ht.later hu) fun _ _ hu => ht.since.trans hu
  have hshapes : Ensures (ToldSoFar shape id [] s) (ofExcept .shapes (g.propertyShapes shape.1))
      (fun properties t => ToldSoFar shape id [] s t ∧ g.propertyShapes shape.1 = .ok properties)
      (fun _ => ReportedSince g s) :=
    ensures_ofExcept (fun _ hproperties _ ht => ⟨ht, hproperties⟩) fun _ _ _ ht => ht.since
  refine (hkeeps (accounts_linkRelatives hresolve)).bind fun _ => hshapes.bind fun properties => ?_
  refine Ensures.of_fact fun hproperties => ?_
  have hloop : Ensures (ToldSoFar shape id [] s)
      (properties.forM (addProperty n shape.1 id (inlineType resolve [])))
      (fun _ => ToldSoFar shape id ([] ++ properties) s) (fun _ => ReportedSince g s) :=
    ensures_forM (fun done => ToldSoFar shape id done s) properties []
      fun _ _ _ => ensures_addProperty_told hresolve
  exact hloop.bind fun _ => (hkeeps accounts_detectList).mono (fun _ h => h)
    (fun _ _ h => ⟨properties, hproperties, h⟩) fun _ _ h => h

theorem accounts_fillComposite {kind : CompositeKind} {id : CompositeId} {members : List Term} :
    Accounts g (fillComposite shape.1 kind id members resolve) := by
  refine fun s => keeps_fillComposite (fun _ event h => h.log event)
    (fun _ _ r hr => hresolve r (found_of_member? hr) s) fun t ids m ht hfill => ht.grow ?_
  rcases TypeModel.fillComposite_eq hfill with ⟨-, rfl⟩ | ⟨c, -, -, rfl⟩
  · exact List.prefix_refl _
  · simp only [TypeModel.objects_setComposite, List.prefix_refl]

end Building

/-- A node shape is recorded with everything accounted for. -/
theorem ReportedSince.record {shape : g.Member} {place : NodeType} (h : ReportedSince g s t)
    (htold : ∀ id, place = .object id → ∀ r properties, g.member? shape.1.identifier = some r →
      g.propertyShapes r.1 = .ok properties →
      ∀ q ∈ properties, t.Told shape.1.identifier id q.1.identifier) :
    ReportedSince g s (t.record shape.1.identifier place) := by
  refine ⟨fun identifier id hmem => ?_, h.2.objects, h.2.events⟩
  rcases List.mem_cons.1 hmem with hnew | hold
  · obtain ⟨rfl, hplace⟩ := Prod.mk.inj hnew
    exact htold id hplace.symm
  · exact h.1 identifier id hold

/-- Building a node shape accounts for its property shapes, and a failure for what was
there before. -/
theorem ensures_build_reported {n : Namer} {shape : g.Member} (hfound : Found shape)
    (hs : Reported g s) {resolve : NodeType → NodeResolver g}
    (hresolve : ∀ place r, Found r → Accounts g (resolve place r)) :
    Ensures (fun t => t = s) (build n shape.1 resolve fun place => inlineType (resolve place) [])
      (fun place t => ReportedSince g s (t.record shape.1.identifier place))
      (fun _ => ReportedSince g s) := by
  have hstart : ReportedSince g s s := .refl hs
  unfold build
  split
  · next kind members hcomposite =>
    dsimp only
    split
    · exact ensures_throw_bind fun t ht => ht ▸ hstart
    · have hplaced : Ensures (fun t => t = s) (addComposite kind (n.objectComposite shape.1))
          (fun _ => ReportedSince g s) (fun _ => ReportedSince g s) := by
        rintro t rfl
        exact hstart.grow (t.model.grows_addComposite kind _).objects
      refine hplaced.bind fun id => Ensures.bind (accounts_fillComposite (hresolve _) s) fun _ => ?_
      exact ensures_pure fun t ht => ht.record fun _ hplace => by cases hplace
  · have hplaced : Ensures (fun t => t = s) (addObject (n.objectType shape.1))
        (fun id => ToldSoFar shape id [] s) (fun _ => ReportedSince g s) := by
      rintro t rfl
      exact ⟨hstart.grow (t.model.grows_addObject _).objects,
        ⟨_, t.model.object?_addObject _⟩, fun _ hq => by cases hq⟩
    refine hplaced.bind fun id => (ensures_fillObject_told (hresolve _)).bind fun _ => ?_
    refine ensures_pure fun t ht => ?_
    obtain ⟨properties, hproperties, htold⟩ := ht
    refine htold.since.record fun id' hplace r properties' hr hproperties' => ?_
    obtain rfl := NodeType.object.inj hplace
    obtain rfl : shape = r := Option.some.inj (hfound.symm.trans hr)
    obtain rfl : properties = properties' := Except.ok.inj (hproperties.symm.trans hproperties')
    exact htold.told

/-! ## Resolving -/

section Resolving

variable {settings : Settings}

/-- Resolving a node shape leaves every property shape of what is resolved accounted for. -/
theorem accounts_nodeShape (scope : Scope) {shape : g.Member} (hfound : Found shape) :
    Accounts g (nodeShape g settings scope shape) := by
  refine accounts_of_ensures fun s hs => nodeShape_induction settings
    (fun _ r s => Found r ∧ Reported g s) (fun _ _ s _ => ReportedSince g s)
    (fun _ _ s _ => ReportedSince g s) ?_ ?_ ?_ scope shape s ⟨hfound, hs⟩
  · exact fun _ _ s _ hs _ => (ReportedSince.refl hs.2).log _
  · exact fun _ _ s _ hs _ => (ReportedSince.refl hs.2).log _
  · intro scope shape s hs _ _ ih
    have hlogged := (ReportedSince.refl hs.2).log (.resolving shape.1.identifier)
    refine (ensures_build_reported hs.1 hlogged.1 fun place r hr => ?_).mono (fun _ h => h) ?_ ?_
    · exact accounts_of_ensures fun t ht => ih place r t ⟨hr, ht⟩
    · exact fun _ _ ht => hlogged.trans ht
    · exact fun _ t ht => ⟨ht.1.rollback _, hlogged.2.trans ht.2.rollback⟩

/-- Resolving a whole graph leaves every property shape of what is resolved accounted for. -/
theorem reported_resolveAll : Reported g (outcome (resolveAll g settings) .empty).2 := by
  have hnext : ∀ r ∈ g.nodeShapes, Keeps (ReportedSince g .empty)
      (do let _ ← resolveNodeShape g settings r) := fun r hr =>
    Keeps.bind (accounts_nodeShape .outermost (found_of_mem_nodeShapes hr) _) fun _ => keeps_pure _
  have hcheck : Keeps (ReportedSince g .empty) checkModel :=
    ensures_get_bind fun s hs => ensures_ofExcept (fun _ _ _ h => h ▸ hs) fun _ _ _ h => h ▸ hs
  have hend : Keeps (ReportedSince g .empty) (resolveAll g settings) := by
    refine (keeps_forM hnext).bind fun _ => hcheck.bind fun _ => ensures_get_bind fun s hs => ?_
    have hreport : Ensures (fun t => t = s)
        (report (.finished s.model.extent.objects s.model.extent.intersections
          s.model.extent.unions))
        (fun _ => ReportedSince g .empty) (fun _ => ReportedSince g .empty) :=
      ensures_report fun t ht => ht ▸ hs.log _
    exact hreport.bind fun _ => ensures_pure fun _ h => h
  have hempty : Reported g .empty := fun _ _ hmem => by cases hmem
  exact (hend.apply (.refl hempty)).1

end Resolving

/-! ## Kept or left out -/

theorem toOption_require (g : ShapesGraph) (entry : Term) :
    (g.require entry).toOption = g.member? entry := by
  unfold require
  cases g.member? entry <;> rfl

section PropertyShapes

variable {shape : Shape} {properties : List g.Member}
variable (h : g.propertyShapes shape = .ok properties)
include h

/-- The property shapes of a shape are what is found under the identifiers that it lists. -/
theorem map_member?_of_propertyShapes :
    shape.constraints.properties.map g.member? = properties.map some := by
  have hrequired := congrArg (List.map Except.toOption) (map_eq_of_mapM_eq_ok h)
  rw [List.map_map, List.map_map] at hrequired
  calc shape.constraints.properties.map g.member?
      = shape.constraints.properties.map (Except.toOption ∘ g.require) :=
        List.map_congr_left fun entry _ => (toOption_require g entry).symm
    _ = properties.map some := hrequired

theorem filterMap_propertyShapes {β : Type} (f : g.Member → Option β) :
    properties.filterMap f =
      shape.constraints.properties.filterMap fun entry => (g.member? entry).bind f := by
  have hfound := congrArg (List.filterMap fun r => r.bind f) (map_member?_of_propertyShapes h)
  rw [List.filterMap_map, List.filterMap_map] at hfound
  exact hfound.symm

theorem exists_propertyShape {entry : Term} (hentry : entry ∈ shape.constraints.properties) :
    ∃ q ∈ properties, g.member? entry = some q := by
  have hmem := List.mem_map_of_mem (f := g.member?) hentry
  rw [map_member?_of_propertyShapes h] at hmem
  obtain ⟨q, hq, heq⟩ := List.mem_map.1 hmem
  exact ⟨q, hq, heq.symm⟩

theorem found_of_mem_propertyShapes {q : g.Member} (hq : q ∈ properties) : Found q := by
  have hmem := List.mem_map_of_mem (f := some) hq
  rw [← map_member?_of_propertyShapes h] at hmem
  obtain ⟨entry, -, hentry⟩ := List.mem_map.1 hmem
  exact found_of_member? hentry

end PropertyShapes

/-- The property that a property shape would give again has its name and its path. -/
theorem propertyAgain?_fields {settings : Settings} {q : g.Member} {p : Property}
    (h : propertyAgain? settings s q = some p) :
    p.name.identifier = q.1.identifier ∧ q.1.path = some (.predicate p.path) := by
  unfold propertyAgain? resolveProperty at h
  cases hrun : outcome (property (namer g settings) (valueType g settings .outermost) q) s with
  | mk result t =>
    rw [hrun] at h
    cases result with
    | error e => cases h
    | ok p' =>
      obtain rfl := Option.some.inj h
      exact (ensures_property_fields (fun _ => True) _ q).ok trivial hrun

/-- The properties of an object type are a selection from the property shapes that its
shape lists, in the order of the list: each has the identifier of its property shape as
its name and the predicate that is the path of the property shape as its path.  Of every
property shape that has not been selected, a warning in the events tells that it was left
out of this object type. -/
theorem properties_kept_or_reported (g : ShapesGraph) (settings : Settings) {m : TypeModel}
    {t : State} (h : resolveGraph g settings = (.ok m, t)) :
    ∀ o ∈ m.objects, ∃ shape : g.Member, g.member? o.name.identifier = some shape ∧
      ∃ kept : Term → Option Property,
        o.properties = shape.1.constraints.properties.filterMap kept ∧
        ∀ entry ∈ shape.1.constraints.properties,
          match kept entry with
          | some p => p.name.identifier = entry ∧
              ∃ q, g.member? entry = some q ∧ q.1.path = some (.predicate p.path)
          | none => ∃ event ∈ t.events.toList, event.level = .warn ∧
              event.message = "Dropping property" ∧
              ∃ e, event = .propertyDropped shape.1.identifier entry e := by
  intro o ho
  obtain ⟨rfl, hs, -, -⟩ := (ensures_resolveAll g settings).ok rfl h
  obtain ⟨id, hid⟩ := TypeModel.exists_object?_of_mem ho
  obtain ⟨shape, properties, hmember, hproperties, hfixed, -⟩ := hs.object_fixed hid
  have hreported : Reported g t := by
    have hend : Reported g (outcome (resolveAll g settings) .empty).2 := reported_resolveAll
    rwa [show outcome (resolveAll g settings) .empty = (.ok t.model, t) from h] at hend
  have hresolved : (o.name.identifier, NodeType.object id) ∈ t.resolved :=
    hs.sound.listed _ _ (TypeModel.owner?_of_object? hid)
  have hidentifier : shape.1.identifier = o.name.identifier := identifier_of_member? hmember
  refine ⟨shape, hmember, fun entry => (g.member? entry).bind (propertyAgain? settings t),
    hfixed.trans (filterMap_propertyShapes hproperties _), fun entry hentry => ?_⟩
  obtain ⟨q, hq, hentry'⟩ := exists_propertyShape hproperties hentry
  have hname : q.1.identifier = entry := identifier_of_member? hentry'
  simp only [hentry', Option.bind_some]
  cases hkept : propertyAgain? settings t q with
  | some p =>
    obtain ⟨hp, hpath⟩ := propertyAgain?_fields hkept
    exact ⟨hp.trans hname, q, rfl, hpath⟩
  | none =>
    -- a property with this name would come from this very property shape
    obtain ⟨o', ho', htold⟩ := hreported _ id hresolved shape properties hmember hproperties q hq
    obtain rfl : o = o' := Option.some.inj (hid.symm.trans ho')
    rcases htold with ⟨p, hp, hp'⟩ | ⟨e, he⟩
    · rw [hfixed] at hp
      obtain ⟨q', hq', hp⟩ := List.mem_filterMap.1 hp
      have hsame : q' = q := (found_of_mem_propertyShapes hproperties hq').ext
        (found_of_member? hentry') ((propertyAgain?_fields hp).1.symm.trans hp')
      rw [hsame, hkept] at hp
      cases hp
    · rw [hname, ← hidentifier] at he
      exact ⟨_, he, rfl, rfl, e, rfl⟩

/-! A cat that purrs and sheds, where only the predicate of purring can be a property. -/

def purrs : Shape :=
  { identifier := .blank "purrs", path := some (.predicate ⟨"urn:purrs"⟩),
    constraints := { datatype := some Vocabulary.xsd.boolean } }

def sheds : Shape :=
  { identifier := .blank "sheds", path := some (.inverse (.predicate ⟨"urn:on"⟩)),
    constraints := { datatype := some Vocabulary.xsd.string } }

def cat : Shape :=
  { identifier := .blank "cat",
    constraints := { properties := [sheds.identifier, purrs.identifier] } }

/-- The graph of the three. -/
def cattery : ShapesGraph where
  shapes := [cat, purrs, sheds]
  declared := [cat.identifier]
  hierarchy := .empty
  prefixes := .empty

theorem properties_kept_or_reported_cattery :
    ∃ m t, resolveGraph cattery .standard = (.ok m, t) ∧
      ∃ o ∈ m.objects, o.properties.map Property.path = [⟨"urn:purrs"⟩] ∧
        ∃ e, .propertyDropped cat.identifier sheds.identifier e ∈ t.events.toList := by
  have hobjects : (resolveGraph cattery .standard).1.toOption.map (fun m =>
      m.objects.map fun o => (o.name.identifier, o.properties.map Property.path)) =
      some [(cat.identifier, [⟨"urn:purrs"⟩])] := by decide +kernel
  cases hrun : resolveGraph cattery .standard with
  | mk result t =>
    rw [hrun] at hobjects
    cases result with
    | error e => cases hobjects
    | ok m =>
      obtain ⟨o, hm, heq⟩ := List.map_eq_singleton_iff.1 (Option.some.inj hobjects)
      obtain ⟨hname, hpaths⟩ := Prod.mk.inj heq
      have ho : o ∈ m.objects := hm ▸ List.mem_cons_self
      obtain ⟨shape, hmember, kept, -, hentries⟩ :=
        properties_kept_or_reported cattery .standard hrun o ho
      rw [hname] at hmember
      obtain rfl : ⟨cat, by simp [cattery]⟩ = shape := Option.some.inj hmember
      have hsheds := hentries sheds.identifier List.mem_cons_self
      refine ⟨m, t, rfl, o, ho, hpaths, ?_⟩
      cases hkept : kept sheds.identifier with
      | some p =>
        rw [hkept] at hsheds
        obtain ⟨-, q, hq, hpath⟩ := hsheds
        obtain rfl : ⟨sheds, by simp [cattery]⟩ = q := Option.some.inj hq
        cases hpath
      | none =>
        rw [hkept] at hsheds
        obtain ⟨event, hevent, -, -, e, rfl⟩ := hsheds
        exact ⟨e, hevent⟩

end Resolver

end ShaclTypes
