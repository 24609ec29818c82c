import ShaclTypes.Proofs.Stage
set_option autoImplicit false

/-!
# Filling entries as expected

If the node shapes around can be resolved as the catalogue says (`Answers`), the
building of a node shape ends well exactly if the shape can be built, and then its
entry reads as expected (`ensures_build_expected`).  There is one lemma for each
part of the building, which says what the part adds to the entry and which node
shapes are met on the way.
-/

namespace ShaclTypes

open ShaclTypes.Rdf

namespace Resolver

open ShapesGraph

variable {g : ShapesGraph} {x : Site g} {resolve : NodeResolver g} {met : Term → Prop}
variable {E : TypeModel → Prop}

/-! ## Properties -/

/-- Typing a property shape gives the expected property and meets all that it
asks for. -/
theorem ensures_property (hresolve : Answers x resolve) (hE : Lasting E) {q : g.Member}
    (hneeds : ∀ a ∈ asked x.namer x.resolvable q, x.needs a) :
    Ensures (Filled x met E) (property x.namer (inlineType resolve []) q)
      (fun p => Filled x (fun a => met a ∨ a ∈ asked x.namer x.resolvable q)
        (fun m => E m ∧ ∃ p', expectedProperty? x.namer x.resolvable q = some p' ∧
          ReadsAs g m Property.renumber p p'))
      (fun _ t => Filled x (fun a => met a ∨ a ∈ asked x.namer x.resolvable q) E t ∧
        expectedProperty? x.namer x.resolvable q = none) := by
  refine Ensures.of_forall fun t ht => ?_
  let J : List Term → State → Prop := fun soFar u =>
    t.Extends u ∧ Stage x (fun a => x.needs a ∨ a ∈ soFar) u ∧ ∀ a ∈ soFar, a ∈ x.known u
  have htracks : Tracks x.namer x.resolvable J resolve := by
    refine ⟨fun _ u hu => ⟨x.inner, hu.2.1.sound⟩, fun _ u e hu =>
      ⟨hu.1.log e, hu.2.1.log e, hu.2.2⟩, ?_⟩
    intro r hr soFar u hnow
    obtain ⟨hext, hstage, hknown⟩ := hnow
    refine (hresolve r hr _ u hstage).mono (fun _ h => h) ?_ ?_
    · intro type v hend
      obtain ⟨hv, hmore, hresolvable, hlisted⟩ := hend
      refine ⟨hresolvable, ⟨hext.trans hmore, hv.mono ?_, ?_⟩, hmore.model.retains,
        hv.sound.readsAs_slot hr hlisted⟩
      · rintro a ((ha | ha) | rfl)
        · exact .inl ha
        · exact .inr (List.mem_cons_of_mem _ ha)
        · exact .inr List.mem_cons_self
      · intro a ha
        rcases List.mem_cons.1 ha with rfl | ha
        · exact List.mem_map.2 ⟨_, hlisted, rfl⟩
        · exact Site.known_subset hmore (hknown a ha)
    · intro e v hend
      obtain ⟨hsame, hresolvable⟩ := hend
      refine ⟨hresolvable, ⟨hext.trans hsame.extends, hstage.of_sameTypes hsame, ?_⟩,
        hsame.extends.model.retains⟩
      exact fun a ha => Site.known_subset hsame.extends (hknown a ha)
  have hstart : J [] t := ⟨.refl t, ht.stage.mono fun _ ha => .inl ha, by simp⟩
  -- in the end nothing has been asked for that the shape does not need
  have hend : ∀ u, J (asked x.namer x.resolvable q) u →
      Filled x (fun a => met a ∨ a ∈ asked x.namer x.resolvable q) E u := by
    intro u hnow
    obtain ⟨hext, hstage, hknown⟩ := hnow
    have hu : Stage x x.needs u := hstage.mono fun a ha => ha.elim id (hneeds a)
    have hfilled := ht.extends hE hu hext
    exact ⟨hu, hfilled.entry, fun a ha => ha.elim (hfilled.met a) (hknown a)⟩
  refine (htracks.ensures_property q hstart).mono (fun _ h => h) ?_ ?_
  · intro p u hend
    obtain ⟨hu, hexpected⟩ := hend
    exact (hend u hu).mono (fun _ ha => ha) fun hentry => ⟨hentry, hexpected⟩
  · intro e u hend
    obtain ⟨hu, hexpected⟩ := hend
    exact ⟨hend u hu, hexpected⟩

/-! ## Object types -/

section Objects

variable {id : ObjectId} (hplace : x.place = .object id)
variable (hid : x.start.model.objects.length ≤ id.index)
include hplace hid

/-- Filling the object type of the site leads to a further stage. -/
theorem Filled.modifyObject {e e' : ObjectType} {f : ObjectType → ObjectType} {t : State}
    (h : Filled x met (ObjectReads g id e) t) (hf : ∀ o, (f o).unfilled = o.unfilled)
    (hreads : ∀ o, ReadsAs g t.model ObjectType.renumber o e →
      ReadsAs g t.model ObjectType.renumber (f o) e') :
    Filled x met (ObjectReads g id e') { t with model := t.model.modifyObject id f } := by
  have hfilling := h.stage.filling
  rw [hplace] at hfilling
  refine ⟨h.stage.refill ?_ (t.model.outline_modifyObject id hf) ?_, h.entry.modify hf hreads,
    h.met⟩
  · rw [hplace]
    exact hfilling.modifyObject hid hf
  · intro type htype
    exact t.model.keepsEntry_modifyObject f (hplace ▸ htype)

variable (hobject : x.shape.1.constraints.nodeComposition? = none)
include hobject

omit hplace hid in
theorem needs_of_mem_relatives {kinship : Kinship} {r : g.Member}
    (hr : r ∈ g.relatives kinship x.shape.1) : x.needs r.1.identifier := by
  unfold Site.needs Needs
  rw [hobject]
  exact .inl ⟨kinship, r, hr, rfl⟩

omit hplace hid in
theorem needs_of_mem_asked {properties : List g.Member} {q : g.Member} {a : Term}
    (hproperties : g.propertyShapes x.shape.1 = .ok properties) (hq : q ∈ properties)
    (ha : a ∈ asked x.namer x.resolvable q) : x.needs a := by
  unfold Site.needs Needs
  rw [hobject]
  exact .inr ⟨properties, hproperties, q, hq, ha⟩

omit hplace hid in
/-- Resolving one more relative gives its slot, unless it cannot be resolved. -/
theorem ensures_resolveRelative (hresolve : Answers x resolve) (hE : Lasting E)
    {kinship : Kinship} {done : List g.Member} {types : List NodeType} {r : g.Member}
    (hr : r ∈ g.relatives kinship x.shape.1) :
    Ensures
      (Filled x (fun a => met a ∨ ∃ r' ∈ done, r'.1.identifier = a) fun m => E m ∧
        ReadsAs g m (fun ρ => List.map (NodeType.renumber ρ)) types (done.map g.slot))
      (resolve r)
      (fun type t =>
        Filled x (fun a => met a ∨ ∃ r' ∈ done ++ [r], r'.1.identifier = a) (fun m => E m ∧
          ReadsAs g m (fun ρ => List.map (NodeType.renumber ρ)) (types ++ [type])
            ((done ++ [r]).map g.slot)) t ∧
        x.resolvable r.1.identifier)
      (fun _ _ => ¬x.resolvable r.1.identifier) := by
  have hfound := found_of_mem_relatives hr
  refine Ensures.of_forall fun t ht => ?_
  refine (hresolve r hfound _ t ht.stage).mono (fun _ h => h) ?_ (fun _ _ h => h.2)
  intro type u hend
  obtain ⟨hu, hext, hresolvable, hlisted⟩ := hend
  have hneeded : Stage x x.needs u := hu.mono fun a ha =>
    ha.elim id fun heq => heq ▸ needs_of_mem_relatives hobject hr
  have hfilled := ht.extends (hE.and lasting_readsAs) hneeded hext
  refine ⟨⟨hneeded, ⟨hfilled.entry.1, ?_⟩, ?_⟩, hresolvable⟩
  · rw [List.map_append]
    exact hfilled.entry.2.concat (hu.sound.readsAs_slot hfound hlisted)
  · rintro a (ha | ⟨r', hr', rfl⟩)
    · exact hfilled.met a (.inl ha)
    · rcases List.mem_append.1 hr' with hdone | hlast
      · exact hfilled.met _ (.inr ⟨r', hdone, rfl⟩)
      · obtain rfl := List.mem_singleton.1 hlast
        exact List.mem_map.2 ⟨_, hlisted, rfl⟩

omit hplace hid in
/-- Resolving the relatives gives their slots, unless one cannot be resolved. -/
theorem ensures_resolveRelatives (hresolve : Answers x resolve) (hE : Lasting E)
    (kinship : Kinship) :
    Ensures (Filled x met E) (resolveRelatives x.shape.1 kinship resolve)
      (fun ids t =>
        Filled x (fun a => met a ∨ ∃ r ∈ g.relatives kinship x.shape.1, r.1.identifier = a)
          (fun m => E m ∧ ReadsAs g m (fun ρ => List.map ρ.object) ids
            (relativeSlots g kinship x.shape.1)) t ∧
        ∀ r ∈ g.relatives kinship x.shape.1, x.resolvable r.1.identifier)
      (fun _ _ => ¬g.Buildable x.resolvable x.shape.1) := by
  let Inv : List g.Member → List NodeType → State → Prop := fun done types t =>
    Filled x (fun a => met a ∨ ∃ r ∈ done, r.1.identifier = a)
        (fun m => E m ∧ ReadsAs g m (fun ρ => List.map (NodeType.renumber ρ)) types
          (done.map g.slot)) t ∧
      ∀ r ∈ done, x.resolvable r.1.identifier
  have hstep : ∀ done types, ∀ r ∈ g.relatives kinship x.shape.1,
      Ensures (Inv done types) (resolve r) (fun type => Inv (done ++ [r]) (types ++ [type]))
        (fun _ _ => ¬g.Buildable x.resolvable x.shape.1) := by
    intro done types r hr
    refine Ensures.of_fact fun hdone => ?_
    refine (ensures_resolveRelative hobject hresolve hE hr).mono (fun _ h => h) ?_ ?_
    · intro type t hend
      obtain ⟨ht, hresolvable⟩ := hend
      refine ⟨ht, fun r' hr' => ?_⟩
      rcases List.mem_append.1 hr' with hold | hlast
      · exact hdone r' hold
      · rw [List.mem_singleton.1 hlast]
        exact hresolvable
    · intro e t hresolvable hbuildable
      unfold Buildable at hbuildable
      rw [hobject] at hbuildable
      exact hresolvable (hbuildable.1 kinship r hr)
  have hall := ensures_mapM Inv (g.relatives kinship x.shape.1) [] [] hstep
  refine Ensures.bind (hall.mono ?_ (fun _ _ h => h) fun _ _ h => h) fun types => ensures_pure ?_
  · intro t ht
    refine ⟨ht.mono ?_ fun hentry => ⟨hentry, fun _ _ _ => rfl⟩, by simp⟩
    rintro a (ha | ⟨r, hr, -⟩)
    · exact ha
    · cases hr
  · intro t hend
    obtain ⟨ht, hresolvable⟩ := hend
    refine ⟨ht.mono (fun _ ha => ha) fun hentry => ⟨hentry.1, hentry.2.map ?_⟩, hresolvable⟩
    intro ρ _ heq
    rw [List.nil_append, List.nil_append] at heq
    rw [relativeSlots_eq_filterMap, ← heq, List.filterMap_map, List.map_filterMap]
    exact List.filterMap_congr fun type _ => (NodeType.object?_renumber ρ type).symm

/-- Linking relates the object type to the slots of all relatives. -/
theorem ensures_linkRelatives (hresolve : Answers x resolve) :
    Ensures (Filled x (fun _ => False) (ObjectReads g id (x.namer.objectType x.shape.1)))
      (linkRelatives x.shape.1 id resolve)
      (fun _ t =>
        Filled x x.related
          (ObjectReads g id (linkedObject g x.namer x.shape.1)) t ∧
        ∀ kinship, ∀ r ∈ g.relatives kinship x.shape.1, x.resolvable r.1.identifier)
      (fun _ _ => ¬g.Buildable x.resolvable x.shape.1) := by
  have hbare : Lasting (ObjectReads g id (x.namer.objectType x.shape.1)) := lasting_objectReads
  refine (ensures_resolveRelatives hobject hresolve hbare .ancestor).bind
    fun ancestors => Ensures.of_fact fun hancestors => ?_
  refine (ensures_resolveRelatives hobject hresolve (hbare.and lasting_readsAs) .descendant).bind
    fun descendants => Ensures.of_fact fun hdescendants => ?_
  refine (ensures_resolveRelatives hobject hresolve
    ((hbare.and lasting_readsAs).and lasting_readsAs) .parent).bind
    fun parents => Ensures.of_fact fun hparents => ?_
  refine (ensures_resolveRelatives hobject hresolve
    (((hbare.and lasting_readsAs).and lasting_readsAs).and lasting_readsAs) .child).bind
    fun children => Ensures.of_fact fun hchildren => ensures_modify fun t ht => ⟨?_, ?_⟩
  · obtain ⟨⟨⟨⟨hentry, hreadsA⟩, hreadsD⟩, hreadsP⟩, hreadsC⟩ := ht.entry
    have hmet : ∀ a, x.related a → a ∈ x.known t := by
      intro a ha
      obtain ⟨kinship, hr⟩ := ha
      refine ht.met a ?_
      cases kinship with
      | ancestor => exact .inl (.inl (.inl (.inr hr)))
      | descendant => exact .inl (.inl (.inr hr))
      | parent => exact .inl (.inr hr)
      | child => exact .inr hr
    have hfilled : Filled x x.related (ObjectReads g id (x.namer.objectType x.shape.1)) t :=
      ⟨ht.stage, hentry, hmet⟩
    refine hfilled.modifyObject hplace hid (fun _ => rfl) fun o ho m hm hinj => ?_
    simp only [linkedObject, ← ho m hm hinj, ← hreadsA m hm hinj, ← hreadsD m hm hinj,
      ← hreadsP m hm hinj, ← hreadsC m hm hinj]
    rfl
  · intro kinship
    cases kinship with
    | ancestor => exact hancestors
    | descendant => exact hdescendants
    | parent => exact hparents
    | child => exact hchildren

omit hobject in
/-- A property that is expected is added, and one that is not is left out. -/
theorem ensures_addProperty (hresolve : Answers x resolve) {e : ObjectType} {q : g.Member}
    (hneeds : ∀ a ∈ asked x.namer x.resolvable q, x.needs a)
    (failed : ResolutionError → State → Prop) :
    Ensures (Filled x met (ObjectReads g id e))
      (addProperty x.namer x.shape.1 id (inlineType resolve []) q)
      (fun _ => Filled x (fun a => met a ∨ a ∈ asked x.namer x.resolvable q)
        (ObjectReads g id { e with
          properties := e.properties ++ (expectedProperty? x.namer x.resolvable q).toList }))
      failed := by
  refine (ensures_property hresolve lasting_objectReads hneeds).attempt.bind fun result => ?_
  cases result with
  | ok p =>
    refine ensures_modify fun t ht => ?_
    obtain ⟨hentry, p', hp', hreads⟩ := ht.entry
    have hfilled : Filled x _ (ObjectReads g id e) t := ⟨ht.stage, hentry, ht.met⟩
    refine hfilled.modifyObject hplace hid (fun _ => rfl) fun o ho m hm hinj => ?_
    have ho' := ho m hm hinj
    simp only [hp', Option.toList_some, ← ho', ← hreads m hm hinj, ObjectType.renumber,
      List.map_append, List.map_cons, List.map_nil]
  | error err =>
    refine ensures_report fun t ht => ?_
    obtain ⟨hfilled, hp'⟩ := ht
    simpa only [hp', Option.toList_none, List.append_nil] using hfilled.log _

/-- All property shapes together give the expected properties. -/
theorem ensures_properties (hresolve : Answers x resolve) {properties : List g.Member}
    (hproperties : g.propertyShapes x.shape.1 = .ok properties)
    (failed : ResolutionError → State → Prop) :
    Ensures (Filled x met (ObjectReads g id (linkedObject g x.namer x.shape.1)))
      (properties.forM (addProperty x.namer x.shape.1 id (inlineType resolve [])))
      (fun _ => Filled x
        (fun a => met a ∨ ∃ q ∈ properties, a ∈ asked x.namer x.resolvable q)
        (ObjectReads g id (typedObject g x.namer x.resolvable x.shape.1)))
      failed := by
  let Inv : List g.Member → State → Prop := fun done =>
    Filled x (fun a => met a ∨ ∃ q ∈ done, a ∈ asked x.namer x.resolvable q)
      (ObjectReads g id { linkedObject g x.namer x.shape.1 with
        properties := done.filterMap (expectedProperty? x.namer x.resolvable) })
  have hstep : ∀ done, ∀ q ∈ properties, Ensures (Inv done)
      (addProperty x.namer x.shape.1 id (inlineType resolve []) q) (fun _ => Inv (done ++ [q]))
      failed := by
    intro done q hq
    refine Ensures.mono (ensures_addProperty hplace hid hresolve
      (fun a ha => needs_of_mem_asked hobject hproperties hq ha) failed)
      (fun t (ht : Inv done t) => ht) ?_ (fun _ _ h => h)
    intro _ t ht
    refine ht.mono ?_ fun hentry => ?_
    · rintro a (ha | ⟨q', hq', ha⟩)
      · exact .inl (.inl ha)
      · rcases List.mem_append.1 hq' with hq' | hq'
        · exact .inl (.inr ⟨q', hq', ha⟩)
        · exact .inr (List.mem_singleton.1 hq' ▸ ha)
    · have hlast : [q].filterMap (expectedProperty? x.namer x.resolvable) =
          (expectedProperty? x.namer x.resolvable q).toList := by
        cases hq' : expectedProperty? x.namer x.resolvable q <;> simp [hq']
      rw [List.filterMap_append, hlast]
      exact hentry
  refine (ensures_forM Inv properties [] hstep).mono ?_ ?_ (fun _ _ h => h)
  · intro t ht
    refine ht.mono ?_ fun hentry => hentry
    rintro a (ha | ⟨q, hq, -⟩)
    · exact ha
    · cases hq
  · intro _ t ht
    refine ht.mono (fun _ ha => ha) fun hentry => ?_
    rw [List.nil_append] at hentry
    simpa only [typedObject, hproperties, Except.toOption, Option.getD_some] using hentry

omit hid hobject in
/-- List cells are recognised as expected. -/
theorem Filled.readsAs_itemType? {t : State}
    (h : Filled x met (ObjectReads g id (typedObject g x.namer x.resolvable x.shape.1)) t) :
    ReadsAs g t.model (fun ρ => Option.map (ValueType.renumber ρ))
      (itemType? g x.shape.1 id t.model) (expectedItem? g x.namer x.resolvable x.shape.1) := by
  obtain ⟨o, ho, hreads⟩ := h.entry
  intro m hm hinj
  have howner : t.model.owner? (.object id) = some x.shape.1.identifier := by
    rw [← hplace]
    exact h.stage.sound.owner (p := (x.shape.1.identifier, x.place)) List.mem_cons_self
  have hnumber : (g.numbering m).object id = ⟨g.number x.shape.1.identifier⟩ := by
    simp only [numbering, hm _ _ howner, slotOf]
  unfold itemType? expectedItem?
  split
  · rw [ho, Option.bind_some, ← hnumber, ← hreads m hm hinj, ObjectType.itemTypeAs?_renumber hinj]
  · rfl

omit hobject in
theorem ensures_detectList (failed : ResolutionError → State → Prop) :
    Ensures (Filled x met (ObjectReads g id (typedObject g x.namer x.resolvable x.shape.1)))
      (detectList g x.shape.1 id)
      (fun _ => Filled x met
        (ObjectReads g id (expectedObject g x.namer x.resolvable x.shape.1)))
      failed := by
  refine ensures_get_bind fun t ht => ?_
  have hreads := ht.readsAs_itemType? hplace
  cases hitem : itemType? g x.shape.1 id t.model with
  | none =>
    have hexpected : none = expectedItem? g x.namer x.resolvable x.shape.1 := by
      rw [← hreads.now (numbering_injective ht.stage.sound), hitem]
      rfl
    refine ensures_pure fun u hu => hu ▸ ht.mono (fun _ ha => ha) fun hentry => ?_
    unfold expectedObject
    rw [← hexpected]
    exact hentry
  | some item =>
    have hreport : Ensures (fun u => u = t) (report (.listDetected x.shape.1.identifier))
        (fun _ u => u = t.log (.listDetected x.shape.1.identifier)) failed :=
      ensures_report fun u hu => hu ▸ rfl
    refine hreport.bind fun _ => ensures_modify fun u hu => hu ▸ ?_
    refine (ht.log _).modifyObject hplace hid (fun _ => rfl) fun o ho m hm hinj => ?_
    have hexpected : some (item.renumber (g.numbering m)) =
        expectedItem? g x.namer x.resolvable x.shape.1 := by
      rw [← hreads m hm hinj, hitem]
      rfl
    unfold expectedObject
    rw [← hexpected, ← ho m hm hinj]
    rfl

/-- Filling an object type gives the expected one and meets all that the shape
needs, unless the shape cannot be built. -/
theorem ensures_fillObject (hresolve : Answers x resolve) :
    Ensures (Filled x (fun _ => False) (ObjectReads g id (x.namer.objectType x.shape.1)))
      (fillObject x.namer x.shape.1 id resolve (inlineType resolve []))
      (fun _ t =>
        Filled x x.needs (ObjectReads g id (expectedObject g x.namer x.resolvable x.shape.1)) t ∧
        g.Buildable x.resolvable x.shape.1)
      (fun _ _ => ¬g.Buildable x.resolvable x.shape.1) := by
  have hbuildable : g.Buildable x.resolvable x.shape.1 ↔
      (∀ kinship, ∀ r ∈ g.relatives kinship x.shape.1, x.resolvable r.1.identifier) ∧
        ∃ properties, g.propertyShapes x.shape.1 = .ok properties := by
    unfold Buildable
    rw [hobject]
  refine (ensures_linkRelatives hplace hid hobject hresolve).bind
    fun _ => Ensures.of_fact fun hrelatives => ?_
  have hshapes : Ensures
      (Filled x x.related (ObjectReads g id (linkedObject g x.namer x.shape.1)))
      (ofExcept .shapes (g.propertyShapes x.shape.1))
      (fun properties t => Filled x x.related (ObjectReads g id (linkedObject g x.namer x.shape.1)) t ∧
        g.propertyShapes x.shape.1 = .ok properties)
      (fun _ _ => ¬g.Buildable x.resolvable x.shape.1) := by
    refine ensures_ofExcept (fun _ hproperties _ ht => ⟨ht, hproperties⟩) fun e herror _ _ h => ?_
    obtain ⟨-, properties, hproperties⟩ := hbuildable.1 h
    rw [herror] at hproperties
    cases hproperties
  refine hshapes.bind fun properties => Ensures.of_fact fun hproperties => ?_
  refine (ensures_properties hplace hid hobject hresolve hproperties _).bind fun _ => ?_
  refine (ensures_detectList hplace hid _).mono (fun _ h => h) ?_ (fun _ _ h => h)
  refine fun _ t ht => ⟨ht.mono ?_ fun h => h, hbuildable.2 ⟨hrelatives, properties, hproperties⟩⟩
  intro a ha
  unfold Site.needs Needs at ha
  rw [hobject] at ha
  rcases ha with hr | ⟨properties', hproperties', hq⟩
  · exact .inl hr
  · obtain rfl : properties = properties' := by
      rw [hproperties] at hproperties'
      exact Except.ok.inj hproperties'
    exact .inr hq

end Objects

/-! ## Composites -/

section Composites

variable {kind : CompositeKind} {id : CompositeId} {members : List Term}
variable (hcomposite : x.shape.1.constraints.nodeComposition? = some (kind, members))
include hcomposite

theorem needs_iff_among (a : Term) : x.needs a ↔ x.among members a := by
  unfold Site.needs Needs Site.among
  rw [hcomposite]

/-- Resolving a member leaves the entry as far as it is and meets the member, unless
the member cannot be resolved. -/
theorem ensures_resolveMember (hresolve : Answers x resolve) (hE : Lasting E) {done : List Term}
    {member : Term} (hmember : member ∈ members) {r : g.Member}
    (hr : g.member? member = some r) :
    Ensures (Filled x (x.among done) E) (resolve r)
      (fun type t => Filled x (x.among (done ++ [member])) E t ∧ x.resolvable member ∧
        ReadsAs g t.model NodeType.renumber type (g.slot r))
      (fun _ t => Filled x (x.among (done ++ [member])) E t ∧ ¬x.resolvable member) := by
  have hidentifier : r.1.identifier = member := identifier_of_member? hr
  have hfound := found_of_member? hr
  refine Ensures.of_forall fun t ht => ?_
  refine (hresolve r hfound _ t ht.stage).mono (fun _ h => h) ?_ ?_
  · intro type u hend
    obtain ⟨hu, hext, hresolvable, hlisted⟩ := hend
    rw [hidentifier] at hresolvable
    have hneeded : Stage x x.needs u := by
      refine hu.mono fun a ha => ha.elim id fun heq => ?_
      rw [needs_iff_among hcomposite, heq, hidentifier]
      exact ⟨hmember, hresolvable, by rw [hr]; rfl⟩
    have hfilled := ht.extends hE hneeded hext
    refine ⟨⟨hneeded, hfilled.entry, fun a ha => ?_⟩, hresolvable,
      hu.sound.readsAs_slot hfound hlisted⟩
    rcases x.among_concat ha with hold | ⟨heq, -⟩
    · exact hfilled.met a hold
    · rw [heq, ← hidentifier]
      exact List.mem_map.2 ⟨_, hlisted, rfl⟩
  · intro e u hend
    obtain ⟨hsame, hresolvable⟩ := hend
    rw [hidentifier] at hresolvable
    refine ⟨(ht.of_sameTypes hE hsame).mono (fun a ha => ?_) fun hentry => hentry, hresolvable⟩
    rcases x.among_concat ha with hold | ⟨heq, hresolved, -⟩
    · exact hold
    · exact absurd (heq ▸ hresolved) hresolvable

/-- One more member gives its slot, unless it is no object type or cannot be
resolved. -/
theorem ensures_addMember (hresolve : Answers x resolve) (hE : Lasting E) {done : List Term}
    {ids : List ObjectId} {member : Term} (hmember : member ∈ members)
    (failed : ResolutionError → State → Prop) :
    Ensures
      (Filled x (x.among done) fun m => E m ∧
        ReadsAs g m (fun ρ => List.map ρ.object) ids (g.memberSlots x.resolvable done))
      (addMember x.shape.1 resolve ids member)
      (fun ids' => Filled x (x.among (done ++ [member])) fun m => E m ∧
        ReadsAs g m (fun ρ => List.map ρ.object) ids'
          (g.memberSlots x.resolvable (done ++ [member])))
      failed := by
  let Entry : List Term → List ObjectId → TypeModel → Prop := fun done ids m =>
    E m ∧ ReadsAs g m (fun ρ => List.map ρ.object) ids (g.memberSlots x.resolvable done)
  have hlasting : Lasting (Entry done ids) := hE.and lasting_readsAs
  -- a member without a slot leaves everything as it is
  have hskip : ∀ t, g.memberSlot x.resolvable member = none →
      Filled x (x.among (done ++ [member])) (Entry done ids) t →
      Filled x (x.among (done ++ [member])) (Entry (done ++ [member]) ids) t := by
    intro t hslot ht
    refine ht.mono (fun _ ha => ha) fun hentry => ?_
    simp only [Entry, memberSlots_concat, hslot, Option.toList_none, addAll_nil]
    exact hentry
  unfold addMember
  split
  · next hnone =>
    refine (ensures_report fun t ht => ?_).bind fun _ => ensures_pure fun _ ht => ht
    refine hskip _ (memberSlot_of_unknown hnone) ((ht.log _).mono (fun a ha => ?_) fun h => h)
    rcases x.among_concat ha with hold | ⟨heq, -, hsome⟩
    · exact hold
    · rw [heq, hnone] at hsome
      cases hsome
  · next r hr =>
    refine (ensures_resolveMember hcomposite hresolve hlasting hmember hr).attempt.bind
      fun result => ?_
    cases result with
    | ok type =>
      cases type with
      | object id' =>
        refine ensures_pure ?_
        intro t hend
        obtain ⟨ht, hresolvable, hreads⟩ := hend
        refine ht.mono (fun _ ha => ha) fun hentry => ⟨hentry.1, fun m hm hinj => ?_⟩
        rw [memberSlots_concat, memberSlot_of_found hresolvable hr, ← hreads m hm hinj,
          ← hentry.2 m hm hinj]
        exact map_addAll hinj.object ids [id']
      | composite kind' id' =>
        refine (ensures_report fun t ht => ?_).bind fun _ => ensures_pure fun _ ht => ht
        obtain ⟨hfilled, hresolvable, hreads⟩ := ht
        refine hskip _ ?_ (hfilled.log _)
        rw [memberSlot_of_found hresolvable hr,
          ← hreads.now (numbering_injective hfilled.stage.sound)]
        rfl
    | error e =>
      refine (ensures_report fun t ht => ?_).bind fun _ => ensures_pure fun _ ht => ht
      exact hskip _ (memberSlot_of_not ht.2) (ht.1.log _)

omit hcomposite in
/-- Filling the composite of the site leads to a further stage; it had members enough. -/
theorem Filled.fillComposite (hplace : x.place = .composite kind id)
    (hid : (x.start.model.composites kind).length ≤ id.index) {e : ObjectComposite}
    {ids slots : List ObjectId} {t : State} {model : TypeModel}
    (h : Filled x met (fun m => CompositeReads g kind id e m ∧
      ReadsAs g m (fun ρ => List.map ρ.object) ids slots) t)
    (hmodel : t.model.fillComposite kind id ids = .ok model) :
    Filled x met (CompositeReads g kind id { e with members := slots }) { t with model } ∧
      2 ≤ slots.length := by
  obtain ⟨⟨c, hc, hreads⟩, hids⟩ := h.entry
  obtain ⟨hnone, -⟩ | ⟨c', hc', htwo, hset⟩ := TypeModel.fillComposite_eq hmodel
  · rw [hc] at hnone
    cases hnone
  obtain rfl : c = c' := by
    rw [hc] at hc'
    exact Option.some.inj hc'
  have houtline := TypeModel.outline_fillComposite hmodel
  have hfilling := h.stage.filling
  rw [hplace] at hfilling
  refine ⟨⟨h.stage.refill ?_ houtline ?_, ⟨{ c with members := ids }, ?_, ?_⟩, h.met⟩, ?_⟩
  · rw [hplace]
    exact hfilling.fillComposite hid hmodel
  · intro type htype
    rw [hset]
    exact t.model.keepsEntry_setComposite _ (hplace ▸ htype)
  · rw [hset]
    exact TypeModel.composite?_setComposite hc
  · intro m hm hinj
    have hretains := (TypeModel.Retains.of_outline_eq houtline).trans hm
    simp only [← hids m hretains hinj, ← hreads m hretains hinj]
    rfl
  · rw [← hids.now (numbering_injective h.stage.sound), List.length_map]
    exact htwo

/-- Filling a composite gives the expected one and meets all that the shape
needs, unless the shape cannot be built. -/
theorem ensures_fillComposite (hplace : x.place = .composite kind id)
    (hid : (x.start.model.composites kind).length ≤ id.index) (hresolve : Answers x resolve) :
    Ensures
      (Filled x (fun _ => False) (CompositeReads g kind id (x.namer.objectComposite x.shape.1)))
      (fillComposite x.shape.1 kind id members resolve)
      (fun _ t =>
        Filled x x.needs (CompositeReads g kind id
          (expectedComposite g x.namer x.resolvable x.shape.1 members)) t ∧
        g.Buildable x.resolvable x.shape.1)
      (fun _ _ => ¬g.Buildable x.resolvable x.shape.1) := by
  have hbuildable : g.Buildable x.resolvable x.shape.1 ↔
      2 ≤ (g.memberSlots x.resolvable members).length := by
    unfold Buildable
    rw [hcomposite]
  let Inv : List Term → List ObjectId → State → Prop := fun done ids =>
    Filled x (x.among done) fun m =>
      CompositeReads g kind id (x.namer.objectComposite x.shape.1) m ∧
        ReadsAs g m (fun ρ => List.map ρ.object) ids (g.memberSlots x.resolvable done)
  have hmembers : Ensures
      (Filled x (fun _ => False) (CompositeReads g kind id (x.namer.objectComposite x.shape.1)))
      (members.foldlM (addMember x.shape.1 resolve) []) (Inv members)
      (fun _ _ => ¬g.Buildable x.resolvable x.shape.1) := by
    refine (ensures_foldlM Inv members [] [] fun done ids member hmember =>
      ensures_addMember hcomposite hresolve lasting_compositeReads hmember _).mono
      ?_ (fun _ _ h => h) (fun _ _ h => h)
    refine fun t ht => ht.mono ?_ fun hentry => ⟨hentry, fun _ _ _ => rfl⟩
    exact fun a ha => absurd ha.1 List.not_mem_nil
  refine hmembers.bind fun ids => ensures_get_bind fun t ht => ?_
  have hfill : Ensures (fun u => u = t)
      (ofExcept (.tooFewResolved x.shape.1.identifier) (t.model.fillComposite kind id ids))
      (fun model u => u = t ∧ t.model.fillComposite kind id ids = .ok model)
      (fun _ _ => ¬g.Buildable x.resolvable x.shape.1) := by
    refine ensures_ofExcept (fun _ hmodel _ hu => ⟨hu, hmodel⟩) fun e herror _ _ h => ?_
    obtain ⟨⟨c, hc, -⟩, hids⟩ := ht.entry
    have htwo : 2 ≤ (ids.map (g.numbering t.model).object).length := by
      rw [hids.now (numbering_injective ht.stage.sound)]
      exact hbuildable.1 h
    rw [List.length_map] at htwo
    rw [TypeModel.fillComposite, hc] at herror
    simp only [ObjectComposite.fill_eq_ok.2 ⟨htwo, rfl⟩, Except.map, reduceCtorEq] at herror
  refine hfill.bind fun model => ensures_modify ?_
  intro u hend
  obtain ⟨rfl, hmodel⟩ := hend
  obtain ⟨hfilled, htwo⟩ := ht.fillComposite hplace hid hmodel
  refine ⟨hfilled.mono (fun a ha => ?_) fun hentry => hentry, hbuildable.2 htwo⟩
  exact (needs_iff_among hcomposite a).1 ha

end Composites

/-! ## Node shapes -/

section Places

variable {n : Namer} {R : Term → Prop} {places : List (Term × NodeType)} {s : State}
variable {shape : g.Member} (hs : Sound n (Found (g := g)) places s) (hfound : Found shape)
variable (hfresh : shape.1.identifier ∉ (ledger places s).map Prod.fst)
variable (hbacked : ∀ p ∈ s.resolved, R p.1)
include hs hfound hfresh hbacked

/-- A place for an object type is a site at which nothing has been filled yet. -/
theorem ensures_addObject_filled (hobject : shape.1.constraints.nodeComposition? = none)
    (failed : ResolutionError → State → Prop) :
    Ensures (fun t => t = s) (addObject (n.objectType shape.1))
      (fun id t =>
        Filled ⟨n, R, places, s, shape, .object id⟩ (fun _ => False)
          (ObjectReads g id (n.objectType shape.1)) t ∧
        s.model.objects.length ≤ id.index)
      failed := by
  rintro t rfl
  obtain ⟨hfilling, hid⟩ := (ensures_addObject hs hfound hfresh hobject
    fun _ _ => True).ok rfl (outcome_addObject (n.objectType shape.1) t)
  refine ⟨⟨.start hfilling rfl hbacked, ?_, fun _ h => h.elim⟩, hid⟩
  exact ⟨_, t.model.object?_addObject _, fun _ _ _ => rfl⟩

theorem ensures_addComposite_filled {kind : CompositeKind} {members : List Term}
    (hcomposite : shape.1.constraints.nodeComposition? = some (kind, members))
    (failed : ResolutionError → State → Prop) :
    Ensures (fun t => t = s) (addComposite kind (n.objectComposite shape.1))
      (fun id t =>
        Filled ⟨n, R, places, s, shape, .composite kind id⟩ (fun _ => False)
          (CompositeReads g kind id (n.objectComposite shape.1)) t ∧
        (s.model.composites kind).length ≤ id.index)
      failed := by
  rintro t rfl
  obtain ⟨hfilling, hid⟩ := (ensures_addComposite hs hfound hfresh hcomposite
    fun _ _ => True).ok rfl (outcome_addComposite kind (n.objectComposite shape.1) t)
  refine ⟨⟨.start hfilling rfl hbacked, ?_, fun _ h => h.elim⟩, hid⟩
  exact ⟨_, t.model.composite?_addComposite kind _, fun _ _ _ => rfl⟩

/-- Building a node shape gives the expected entry and meets all that the shape
needs, unless the shape cannot be built. -/
theorem ensures_build_expected {resolve : NodeType → NodeResolver g}
    (hresolve : ∀ place, Answers ⟨n, R, places, s, shape, place⟩ (resolve place)) :
    Ensures (fun t => t = s) (build n shape.1 resolve fun place => inlineType (resolve place) [])
      (fun place t =>
        Filled ⟨n, R, places, s, shape, place⟩ (Needs g n R shape.1)
          (fun m => AsExpected g n R m shape.1 place) t ∧
        g.Buildable R shape.1)
      (fun _ _ => ¬g.Buildable R shape.1) := by
  unfold build
  split
  · next kind members hcomposite =>
    dsimp only
    split
    · next hfew =>
      refine ensures_throw_bind fun _ _ hbuildable => ?_
      have htwo := hbuildable.two_le_length hcomposite
      omega
    · refine (ensures_addComposite_filled hs hfound hfresh hbacked hcomposite _).bind
        fun id => Ensures.of_fact fun hid => ?_
      refine (ensures_fillComposite (x := ⟨n, R, places, s, shape, .composite kind id⟩) hcomposite
        rfl hid (hresolve _)).bind fun _ => ensures_pure fun t ht => ⟨?_, ht.2⟩
      refine ht.1.mono (fun _ ha => ha) ?_
      intro hentry
      obtain ⟨c, hc, hreads⟩ := hentry
      exact ⟨c, members, hcomposite, hc, hreads⟩
  · next hobject =>
    refine (ensures_addObject_filled hs hfound hfresh hbacked hobject _).bind
      fun id => Ensures.of_fact fun hid => ?_
    refine (ensures_fillObject (x := ⟨n, R, places, s, shape, .object id⟩) rfl hid hobject
      (hresolve _)).bind fun _ => ensures_pure fun t ht => ⟨?_, ht.2⟩
    refine ht.1.mono (fun _ ha => ha) ?_
    intro hentry
    obtain ⟨o, ho, hreads⟩ := hentry
    exact ⟨o, hobject, ho, hreads⟩

end Places

end Resolver

end ShaclTypes
