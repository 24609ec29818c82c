import ShaclTypes.Proofs.Identity
import ShaclTypes.Proofs.Integrity
set_option autoImplicit false

/-!
# Resolving keeps models intact

For every law of types and every law of errors, resolving a node shape in a sound and
intact state leaves an intact state, and all errors, whether they are returned or
reported on the way, are lawful (`nodeShape_upkeep`).  While a node shape is built its
place is in the model already, so whatever leads back to it refers to an entry that is
there; if the building fails, place and references go together.

What holds of one node shape and of one property shape holds after every sequence of
calls (`upkeep_afterCalls`).
-/

namespace ShaclTypes

open ShaclTypes.Rdf

namespace Resolver

open ShapesGraph Account

/-- All errors that have been reported are lawful. -/
def Honest (E : ResolutionError → Prop) (s : State) : Prop :=
  ∀ event ∈ s.events.toList, event.Reports E

theorem Honest.log {E : ResolutionError → Prop} {s : State} {event : Event} (h : Honest E s)
    (hevent : event.Reports E) : Honest E (s.log event) := by
  intro event' hmem
  simp only [State.log, Array.toList_push, List.mem_append, List.mem_singleton] at hmem
  rcases hmem with hold | rfl
  · exact h event' hold
  · exact hevent

/-- The account of a resolution that keeps the model intact, besides whatever else it
keeps.  Later models have the entries of earlier ones, though perhaps further filled. -/
def upkeep (V : ValueType → TypeModel → Prop) (E : ResolutionError → Prop) (K : State → Prop) :
    Account where
  kept s := K s ∧ Intact V s ∧ Honest E s
  passes s t := s.model.Retains t.model
  error := E

/-- An entry is in the model of a state. -/
def Held (type : NodeType) (s : State) : Prop := s.model.extent.holds type = true

section Upkeep

variable {g : ShapesGraph} {n : Namer} {V : ValueType → TypeModel → Prop}
variable {E : ResolutionError → Prop} {K : State → Prop}

theorem coherent_upkeep (hlog : ∀ s event, K s → K (s.log event)) :
    (upkeep V E K).Coherent where
  refl s := .refl s.model
  trans _ _ _ h h' := h.trans h'
  log s event hevent hs :=
    ⟨⟨hlog s event hs.1, hs.2.1.log event, hs.2.2.log hevent⟩, .refl s.model⟩

theorem stable_held : (upkeep V E K).Stable Held := fun _ _ _ hpasses h => hpasses.holds h

variable (hV : TypeLaw g V) (hE : ErrorLaw g E)
include hV hE

theorem typesBy_upkeep (hlog : ∀ s event, K s → K (s.log event)) :
    (upkeep V E K).TypesBy g Held (fun v s => V v s.model) where
  toCoherent := coherent_upkeep hlog
  errors := hE
  stable v _ _ hpasses h := hV.retains v _ _ hpasses h
  reference s context type _ htype := hV.reference s.model context type htype

/-! ## Filling a place -/

section Places

variable {places : List (Term × NodeType)} {s : State} {shape : g.Member} {place : NodeType}
variable {resolve : NodeResolver g} {t : State}

/-- The account of the filling of a place. -/
abbrev filling (n : Namer) (V : ValueType → TypeModel → Prop) (E : ResolutionError → Prop)
    (places : List (Term × NodeType)) (s : State) (shape : g.Member) (place : NodeType) : Account :=
  upkeep V E (Filling n (AnyMember (g := g)) places s shape.1.identifier place)

omit hV hE in
theorem coherent_filling : (filling n V E places s shape place).Coherent :=
  coherent_upkeep fun _ event h => h.log event

theorem typesBy_filling :
    (filling n V E places s shape place).TypesBy g Held (fun v s => V v s.model) :=
  typesBy_upkeep hV hE fun _ event h => h.log event

variable (hresolve : ∀ r, Found r → ∀ t, (filling n V E places s shape place).kept t →
  (filling n V E places s shape place).Runs Held t (resolve r))
include hresolve

/-! ### Composites -/

/-- The members of a composite that have been met are there, each once. -/
def Met (ids : List ObjectId) (s : State) : Prop :=
  ids.Nodup ∧ ∀ id ∈ ids, Held (.object id) s

omit hV hE in
theorem runs_addMember {met : List ObjectId} {member : Term}
    (ht : (filling n V E places s shape place).kept t) (hmet : Met met t) :
    (filling n V E places s shape place).Runs Met t (addMember shape.1 resolve met member) := by
  have hx : (filling n V E places s shape place).Coherent := coherent_filling
  have hstable : (filling n V E places s shape place).Stable Met := fun _ _ _ hpasses h =>
    ⟨h.1, fun id hid => hpasses.holds (h.2 id hid)⟩
  unfold addMember
  split
  · exact runs_report_bind hx hstable ht (Event.reports_of_error?_eq_none rfl) hmet
  · next r hr =>
    refine (hresolve r (found_of_member? hr) t ht).attempt.bind hx fun result u hu hpasses hend => ?_
    have hmet' : Met met u := hstable met t u hpasses hmet
    split
    · next id =>
      refine runs_pure hx hu ⟨nodup_addNew hmet'.1 id, fun id' hid' => ?_⟩
      rcases mem_addNew.1 hid' with hold | rfl
      · exact hmet'.2 id' hold
      · exact hend
    · exact runs_report_bind hx hstable hu (Event.reports_of_error?_eq_none rfl) hmet'
    · refine runs_report_bind hx hstable hu (fun cause hcause => ?_) hmet'
      exact Option.some.inj hcause ▸ hend

omit hE hresolve in
/-- Filling the composite of the place with members that have been met. -/
theorem kept_fillComposite {kind : CompositeKind} {id : CompositeId} {ids : List ObjectId}
    {m : TypeModel} (hid : (s.model.composites kind).length ≤ id.index)
    (ht : (filling n V E places s shape (.composite kind id)).kept t) (hmet : Met ids t)
    (hfill : t.model.fillComposite kind id ids = .ok m) :
    (filling n V E places s shape (.composite kind id)).kept { t with model := m } ∧
      ∃ c, m.composite? kind id = some c ∧ 2 ≤ c.members.length := by
  obtain ⟨hfilling, hintact, hhonest⟩ := ht
  have hplace : (shape.1.identifier, NodeType.composite kind id) ∈
      ledger ((shape.1.identifier, .composite kind id) :: places) t := List.mem_cons_self
  obtain ⟨c, hc, -⟩ := Option.map_eq_some_iff.1 (hfilling.sound.owner hplace)
  have hm : m.Intact V := hintact.model.fillComposite hV.retains hmet.1 hmet.2 hfill
  rcases TypeModel.fillComposite_eq hfill with ⟨hnone, -⟩ | ⟨c', hc', htwo, rfl⟩
  · rw [hc] at hnone
    cases hnone
  -- the composite of the place is not that of a resolved node shape
  have hother : ∀ identifier, (identifier, NodeType.composite kind id) ∉ t.resolved := by
    intro identifier hresolved
    have hlisted : (identifier, NodeType.composite kind id) ∈
        ledger ((shape.1.identifier, .composite kind id) :: places) t :=
      List.mem_append_right _ hresolved
    have hsame : identifier = shape.1.identifier :=
      Option.some.inj ((hfilling.sound.owner hlisted).symm.trans (hfilling.sound.owner hplace))
    have hdistinct := (List.nodup_cons.1 hfilling.sound.distinct).1
    exact hdistinct (List.mem_map.2 ⟨_, List.mem_append_right places hresolved, hsame⟩)
  refine ⟨⟨hfilling.fillComposite hid hfill, hintact.of_model hm ?_, hhonest⟩, _,
    TypeModel.composite?_setComposite hc', htwo⟩
  intro identifier kind' id' d hresolved hd
  rw [TypeModel.composite?, TypeModel.composites_setComposite]
  split
  · next heq =>
    subst heq
    have hne : id.index ≠ id'.index := by
      intro hindex
      have hsame : id' = id := by
        cases id
        cases id'
        exact congrArg CompositeId.mk hindex.symm
      exact hother identifier (hsame ▸ hresolved)
    rw [List.getElem?_set_ne hne]
    exact hd
  · exact hd

theorem runs_fillComposite {kind : CompositeKind} {id : CompositeId} (members : List Term)
    (hplace : place = .composite kind id) (hid : (s.model.composites kind).length ≤ id.index)
    (ht : (filling n V E places s shape place).kept t) :
    (filling n V E places s shape place).Runs
      (fun _ u => ∃ c, u.model.composite? kind id = some c ∧ 2 ≤ c.members.length) t
      (fillComposite shape.1 kind id members resolve) := by
  subst hplace
  have hx : (filling n V E places s shape (.composite kind id)).Coherent := coherent_filling
  unfold fillComposite
  refine (runs_foldlM hx (P := Met) ht ⟨List.nodup_nil, fun _ hid => by cases hid⟩
    fun _ member _ u hu hmet => runs_addMember hresolve hu hmet).bind hx ?_
  intro ids u hu _ hmet
  refine ensures_get_bind ?_
  rintro v rfl
  refine (runs_ofExcept hx (P := fun m w => w = v ∧ v.model.fillComposite kind id ids = .ok m) hu
    (fun m hm => ⟨rfl, hm⟩) fun _ _ => hE.other _ rfl).bind hx ?_
  rintro m w - - ⟨rfl, hm⟩
  obtain ⟨hkept, hfilled⟩ := kept_fillComposite hV hid hu hmet hm
  rintro w rfl
  exact ⟨hkept, .of_outline_eq (TypeModel.outline_fillComposite hm), hfilled⟩

/-! ### Object types -/

omit hE hresolve in
/-- Filling the object type of the place with what is intact. -/
theorem runs_modifyObject {id : ObjectId} {f : ObjectType → ObjectType}
    (hplace : place = .object id) (hid : s.model.objects.length ≤ id.index)
    (hf : ∀ o, (f o).unfilled = o.unfilled)
    (hfilled : ∀ o : ObjectType, o.Intact V t.model → (f o).Intact V t.model)
    (ht : (filling n V E places s shape place).kept t) :
    (filling n V E places s shape place).Runs (fun _ _ => True) t (modifyObject id f) := by
  subst hplace
  rintro u rfl
  obtain ⟨hfilling, hintact, hhonest⟩ := ht
  have hm : (u.model.modifyObject id f).Intact V :=
    hintact.model.modifyObject hV.retains hf hfilled
  refine ⟨⟨hfilling.modifyObject hid hf, hintact.of_model hm ?_, hhonest⟩, ?_, trivial⟩
  · intro identifier kind id' c _ hc
    rw [TypeModel.composite?, TypeModel.composites_modifyObject]
    exact hc
  · exact .of_outline_eq (TypeModel.outline_modifyObject _ _ hf)

omit hV hE in
theorem runs_resolveRelatives {kinship : Kinship}
    (ht : (filling n V E places s shape place).kept t) :
    (filling n V E places s shape place).Runs (fun ids u => ∀ id ∈ ids, Held (.object id) u) t
      (resolveRelatives shape.1 kinship resolve) := by
  have hx : (filling n V E places s shape place).Coherent := coherent_filling
  refine (runs_mapM_forall hx stable_held ht fun r hr u hu =>
    hresolve r (found_of_mem_relatives hr) u hu).bind hx fun types u hu _ htypes => ?_
  refine runs_pure hx hu fun id hid => ?_
  obtain ⟨type, htype, hobject⟩ := List.mem_filterMap.1 hid
  cases type with
  | composite kind id' => cases hobject
  | object id' => exact Option.some.inj hobject ▸ htypes _ htype

omit hE in
/-- The relatives of an object type are there by the time it is related to them. -/
theorem runs_linkRelatives {id : ObjectId} (hplace : place = .object id)
    (hid : s.model.objects.length ≤ id.index)
    (ht : (filling n V E places s shape place).kept t) :
    (filling n V E places s shape place).Runs (fun _ _ => True) t
      (linkRelatives shape.1 id resolve) := by
  have hx : (filling n V E places s shape place).Coherent := coherent_filling
  refine (runs_resolveRelatives hresolve ht).bind hx fun ancestors u hu _ hancestors => ?_
  refine (runs_resolveRelatives hresolve hu).bind hx fun descendants v hv huv hdescendants => ?_
  refine (runs_resolveRelatives hresolve hv).bind hx fun parents w hw hvw hparents => ?_
  refine (runs_resolveRelatives hresolve hw).bind hx fun children y hy hwy hchildren => ?_
  refine runs_modifyObject hV hplace hid (fun _ => rfl) (fun o ho => ⟨?_, ho.properties, ho.items⟩)
    hy
  intro id hid
  simp only [ObjectType.relatives, List.mem_append] at hid
  rcases hid with ((hid | hid) | hid) | hid
  · exact hwy.holds (hparents id hid)
  · exact ((huv.trans hvw).trans hwy).holds (hancestors id hid)
  · exact hchildren id hid
  · exact (hvw.trans hwy).holds (hdescendants id hid)

/-- A property is added only if its type is lawful. -/
theorem runs_addProperty {id : ObjectId} {q : g.Member} (hplace : place = .object id)
    (hid : s.model.objects.length ≤ id.index)
    (ht : (filling n V E places s shape place).kept t) :
    (filling n V E places s shape place).Runs (fun _ _ => True) t
      (addProperty n shape.1 id (inlineType resolve []) q) := by
  have hx : (filling n V E places s shape place).TypesBy g Held (fun v s => V v s.model) :=
    typesBy_filling hV hE
  have hproperty : (filling n V E places s shape place).Runs (fun p u => V p.type u.model) t
      (property n (inlineType resolve []) q) :=
    (runs_property hx hresolve (.inl leadsTo_nil) ht).mono fun p u _ ⟨_, hp, hreferences⟩ =>
      hV.of_assembled hp hreferences
  refine hproperty.attempt.bind hx.toCoherent fun result u hu _ hend => ?_
  cases result with
  | error e =>
    exact runs_report hx.toCoherent hu fun cause hcause => Option.some.inj hcause ▸ hend
  | ok p =>
    refine runs_modifyObject hV hplace hid (fun _ => rfl) (fun o ho => ⟨ho.relatives, ?_, ho.items⟩)
      hu
    intro p' hp'
    rcases List.mem_append.1 hp' with hold | hnew
    · exact ho.properties p' hold
    · exact List.mem_singleton.1 hnew ▸ hend

omit hV hE hresolve in
/-- The type of list items is the type of a property. -/
theorem mem_properties_of_itemType? {id : ObjectId} {m : TypeModel} {v : ValueType}
    (h : itemType? g shape.1 id m = some v) :
    ∃ o ∈ m.objects, ∃ p ∈ o.properties, p.type = v := by
  unfold itemType? at h
  split at h
  · obtain ⟨o, ho, hitem⟩ := Option.bind_eq_some_iff.1 h
    unfold ObjectType.itemTypeAs? at hitem
    split at hitem
    · obtain ⟨first, hfirst, hrest⟩ := Option.bind_eq_some_iff.1 hitem
      obtain ⟨rest, -, hlast⟩ := Option.bind_eq_some_iff.1 hrest
      split at hlast
      · exact ⟨o, List.mem_of_getElem? ho, first, List.mem_of_find?_eq_some hfirst,
          Option.some.inj hlast⟩
      · cases hlast
    · cases hitem
  · cases h

omit hE hresolve in
theorem runs_detectList {id : ObjectId} (hplace : place = .object id)
    (hid : s.model.objects.length ≤ id.index)
    (ht : (filling n V E places s shape place).kept t) :
    (filling n V E places s shape place).Runs (fun _ _ => True) t
      (detectList g shape.1 id) := by
  have hx : (filling n V E places s shape place).Coherent := coherent_filling
  refine ensures_get_bind ?_
  rintro u rfl
  split
  · exact runs_pure hx ht trivial
  · next v hv =>
    obtain ⟨o', ho', p, hp, rfl⟩ := mem_properties_of_itemType? hv
    refine (runs_report hx ht (Event.reports_of_error?_eq_none rfl)).bind hx fun _ w hw hpasses _ => ?_
    refine runs_modifyObject hV hplace hid (fun _ => rfl)
      (fun o ho => ⟨ho.relatives, ho.properties, ?_⟩) hw
    intro v hitem
    obtain rfl := Option.some.inj hitem
    exact hV.retains _ _ _ hpasses ((ht.2.1.model.objects o' ho').properties p hp)

theorem runs_fillObject {id : ObjectId} (hplace : place = .object id)
    (hid : s.model.objects.length ≤ id.index)
    (ht : (filling n V E places s shape place).kept t) :
    (filling n V E places s shape place).Runs (fun _ _ => True) t
      (fillObject n shape.1 id resolve (inlineType resolve [])) := by
  have hx : (filling n V E places s shape place).Coherent := coherent_filling
  refine (runs_linkRelatives hV hresolve hplace hid ht).bind hx fun _ u hu _ _ => ?_
  refine (runs_ofExcept hx (P := fun _ _ => True) hu (fun _ _ => trivial)
    fun _ _ => hE.other _ rfl).bind hx fun properties v hv _ _ => ?_
  refine (runs_forM hx hv fun q _ w hw => ?_).bind hx fun _ w hw _ _ => ?_
  · exact runs_addProperty hV hE hresolve hplace hid hw
  · exact runs_detectList hV hplace hid hw

end Places

/-! ## Building and resolving -/

section Building

variable {places : List (Term × NodeType)} {s : State} {shape : g.Member}

/-- Building a node shape from an intact state leaves an intact state once the node
shape is recorded. -/
theorem ensures_build_upkeep (hs : Sound n (AnyMember (g := g)) places s)
    (hintact : Intact V s) (hhonest : Honest E s)
    (hfresh : shape.1.identifier ∉ (ledger places s).map Prod.fst)
    {resolve : NodeType → NodeResolver g}
    (hresolve : ∀ place r, Found r → ∀ t, (filling n V E places s shape place).kept t →
      (filling n V E places s shape place).Runs Held t (resolve place r)) :
    Ensures (fun t => t = s)
      (build n shape.1 resolve fun place => inlineType (resolve place) [])
      (fun place t => Intact V (t.record shape.1.identifier place) ∧ Honest E t)
      (fun e t => Honest E t ∧ E e) := by
  unfold build
  split
  · next kind members hcomposite =>
    dsimp only
    split
    · exact ensures_throw_bind fun t ht => ht ▸ ⟨hhonest, hE.other _ rfl⟩
    · have hplaced : Ensures (fun t => t = s) (addComposite kind (n.objectComposite shape.1))
          (fun id t => (filling n V E places s shape (.composite kind id)).kept t ∧
            (s.model.composites kind).length ≤ id.index)
          (fun e t => Honest E t ∧ E e) := by
        rintro t rfl
        obtain ⟨hfilling, hid⟩ := (ensures_addComposite hs trivial hfresh hcomposite
          fun _ _ => True).ok rfl (outcome_addComposite _ _ _)
        refine ⟨⟨hfilling, hintact.of_model (hintact.model.addComposite hV.retains rfl) ?_,
          hhonest⟩, hid⟩
        exact fun _ _ _ _ _ hc => (t.model.grows_addComposite kind _).composite? hc
      refine hplaced.bind fun id => Ensures.of_fact fun hid => ?_
      have hfill := Runs.ensures fun t ht =>
        runs_fillComposite hV hE (hresolve _) members rfl hid ht
      refine (hfill.mono (fun _ h => h) (fun _ _ h => h) fun _ _ h => ⟨h.1.2.2, h.2⟩).bind fun _ => ?_
      refine ensures_pure fun t ht => ?_
      obtain ⟨⟨-, hintact', hhonest'⟩, hfilled⟩ := ht
      refine ⟨hintact'.record fun kind' id' heq => ?_, hhonest'⟩
      obtain ⟨rfl, rfl⟩ := NodeType.composite.inj heq
      exact hfilled
  · next hobject =>
    have hplaced : Ensures (fun t => t = s) (addObject (n.objectType shape.1))
        (fun id t => (filling n V E places s shape (.object id)).kept t ∧
          s.model.objects.length ≤ id.index)
        (fun e t => Honest E t ∧ E e) := by
      rintro t rfl
      obtain ⟨hfilling, hid⟩ := (ensures_addObject hs trivial hfresh hobject
        fun _ _ => True).ok rfl (outcome_addObject _ _)
      refine ⟨⟨hfilling, hintact.of_model (hintact.model.addObject hV.retains rfl) ?_,
        hhonest⟩, hid⟩
      exact fun _ _ _ _ _ hc => (t.model.grows_addObject _).composite? hc
    refine hplaced.bind fun id => Ensures.of_fact fun hid => ?_
    have hfill := Runs.ensures fun t ht => runs_fillObject hV hE (hresolve _) rfl hid ht
    refine (hfill.mono (fun _ h => h) (fun _ _ h => h) fun _ _ h => ⟨h.1.2.2, h.2⟩).bind fun _ => ?_
    refine ensures_pure fun t ht => ?_
    obtain ⟨⟨-, hintact', hhonest'⟩, -⟩ := ht
    refine ⟨hintact'.record fun kind id' heq => ?_, hhonest'⟩
    cases heq

end Building

end Upkeep

/-- What is to be kept up at a moment of a resolution: a sound and intact state, with
lawful errors only. -/
structure Tended (g : ShapesGraph) (settings : Settings) (V : ValueType → TypeModel → Prop)
    (E : ResolutionError → Prop) (places : List (Term × NodeType)) (s : State) : Prop where
  sound : Sound (namer g settings) (AnyMember (g := g)) places s
  intact : Intact V s
  honest : Honest E s

section Resolving

variable {g : ShapesGraph} {settings : Settings} {V : ValueType → TypeModel → Prop}
variable {E : ResolutionError → Prop}
variable (hV : TypeLaw g V) (hE : ErrorLaw g E)
include hV hE

/-- Resolving a node shape keeps the state as it should be and adds its entry. -/
theorem nodeShape_upkeep (scope : Scope) (shape : g.Member) (s : State)
    (hs : Tended g settings V E scope.places s) :
    Ensures (fun t => t = s) (nodeShape g settings scope shape)
      (fun type t => Tended g settings V E scope.places t ∧ s.Extends t ∧ Held type t)
      (fun e t => Tended g settings V E scope.places t ∧ s.SameTypes t ∧ E e) := by
  have hfound : ∀ r : g.Member, Found r → AnyMember r := fun _ _ => trivial
  -- soundness is known, so that only the other two are carried through the induction
  suffices h : Ensures (fun t => t = s) (nodeShape g settings scope shape)
      (fun _ t => Intact V t ∧ Honest E t) (fun e t => Honest E t ∧ E e) by
    refine ((nodeShape_sound hfound scope shape trivial s hs.sound).and h).mono
      (fun _ h => h) ?_ ?_
    · rintro type t ⟨⟨hsound, hext, hlisted⟩, hintact, hhonest⟩
      exact ⟨⟨hsound, hintact, hhonest⟩, hext, hsound.holds hlisted⟩
    · rintro e t ⟨hsame, hhonest, he⟩
      exact ⟨⟨hs.sound.of_sameTypes hsame, hs.intact.of_sameTypes hsame, hhonest⟩, hsame, he⟩
  refine nodeShape_induction settings
    (fun scope _ s => Tended g settings V E scope.places s)
    (fun _ _ _ _ t => Intact V t ∧ Honest E t) (fun _ _ _ e t => Honest E t ∧ E e)
    ?_ ?_ ?_ scope shape s hs
  · exact fun scope shape s place hs _ =>
      ⟨hs.intact.log _, hs.honest.log (Event.reports_of_error?_eq_none rfl)⟩
  · exact fun scope shape s type hs _ =>
      ⟨hs.intact.log _, hs.honest.log (Event.reports_of_error?_eq_none rfl)⟩
  · intro scope shape s hs hplace hresolved ih
    refine ensures_build_upkeep hV hE (hs.sound.log (.resolving shape.1.identifier))
      (hs.intact.log _) (hs.honest.log (Event.reports_of_error?_eq_none rfl))
      (not_mem_ledger hplace hresolved) fun place r hr t ht => ?_
    obtain ⟨hfilling, hintact, hhonest⟩ := ht
    have hsound := nodeShape_sound hfound (scope.enter shape.1.identifier place) r trivial t
      hfilling.sound
    refine (hsound.and (ih place r t ⟨hfilling.sound, hintact, hhonest⟩)).mono
      (fun _ h => h) ?_ ?_
    · rintro type u ⟨⟨hu, hext, hlisted⟩, hintact', hhonest'⟩
      exact ⟨⟨⟨hu, hfilling.grown.trans hext⟩, hintact', hhonest'⟩, hext.model.retains,
        hu.holds hlisted⟩
    · rintro e u ⟨hsame, hhonest', he⟩
      exact ⟨⟨⟨hfilling.sound.of_sameTypes hsame, hfilling.grown.trans hsame.extends⟩,
        hintact.of_sameTypes hsame, hhonest'⟩, hsame.extends.model.retains, he⟩

/-- The account of what is done outside of all resolutions. -/
abbrev resting (g : ShapesGraph) (settings : Settings) (V : ValueType → TypeModel → Prop)
    (E : ResolutionError → Prop) : Account :=
  upkeep V E (Sound (namer g settings) (AnyMember (g := g)) [])

/-- Resolving a property shape does so too, and its type is lawful. -/
theorem property_upkeep (shape : g.Member) (s : State) (hs : Tended g settings V E [] s) :
    Ensures (fun t => t = s) (resolveProperty g settings shape)
      (fun p t => Tended g settings V E [] t ∧ V p.type t.model)
      (fun e t => Tended g settings V E [] t ∧ E e) := by
  have hx : (resting g settings V E).TypesBy g Held (fun v s => V v s.model) :=
    typesBy_upkeep hV hE fun _ event h => h.log event
  have hresolve : ∀ r, Found r → ∀ t, (resting g settings V E).kept t →
      (resting g settings V E).Runs Held t (nodeShape g settings .outermost r) := by
    intro r _ t ht
    refine (nodeShape_upkeep hV hE .outermost r t ⟨ht.1, ht.2.1, ht.2.2⟩).mono
      (fun _ h => h) ?_ ?_
    · exact fun _ _ h => ⟨⟨h.1.sound, h.1.intact, h.1.honest⟩, h.2.1.model.retains, h.2.2⟩
    · exact fun _ _ h =>
        ⟨⟨h.1.sound, h.1.intact, h.1.honest⟩, h.2.1.extends.model.retains, h.2.2⟩
  have hrun : (resting g settings V E).Runs (fun p t => V p.type t.model) s
      (property (namer g settings) (inlineType (nodeShape g settings .outermost) []) shape) :=
    (runs_property hx hresolve (.inl leadsTo_nil) ⟨hs.sound, hs.intact, hs.honest⟩).mono
      fun p t _ ⟨_, hp, hreferences⟩ => hV.of_assembled hp hreferences
  unfold resolveProperty
  rw [resolveProperty_eq]
  refine Ensures.mono hrun (fun _ h => h) ?_ ?_
  · exact fun _ _ h => ⟨⟨h.1.1, h.1.2.1, h.1.2.2⟩, h.2.2⟩
  · exact fun _ _ h => ⟨⟨h.1.1, h.1.2.1, h.1.2.2⟩, h.2.2⟩

theorem ensures_tended_nodeShape (shape : g.Member) :
    Ensures (Tended g settings V E []) (resolveNodeShape g settings shape)
      (fun _ => Tended g settings V E []) (fun e t => Tended g settings V E [] t ∧ E e) :=
  Ensures.of_forall fun t ht => (nodeShape_upkeep hV hE .outermost shape t ht).mono
    (fun _ h => h) (fun _ _ h => h.1) (fun _ _ h => ⟨h.1, h.2.2⟩)

theorem ensures_tended_property (shape : g.Member) :
    Ensures (Tended g settings V E []) (resolveProperty g settings shape)
      (fun _ => Tended g settings V E []) (fun e t => Tended g settings V E [] t ∧ E e) :=
  Ensures.of_forall fun t ht => (property_upkeep hV hE shape t ht).mono
    (fun _ h => h) (fun _ _ h => h.1) (fun _ _ h => h)

omit hV hE in
theorem tended_empty : Tended g settings V E [] .empty where
  sound := sound_empty _ _
  intact := by
    refine ⟨⟨fun _ ho => (by cases ho), fun kind _ hc => ?_⟩, fun _ _ _ h => (by cases h)⟩
    cases kind <;> cases hc
  honest _ hevent := by simp [State.empty] at hevent

omit hV hE in
theorem Tended.log {s : State} {event : Event} (h : Tended g settings V E [] s)
    (hevent : event.Reports E) : Tended g settings V E [] (s.log event) :=
  ⟨h.sound.log event, h.intact.log event, h.honest.log hevent⟩

/-- After every sequence of calls, whether they fail or not, the state is as it should be. -/
theorem tended_afterCalls (calls : List (Call g)) :
    Tended g settings V E [] (afterCalls settings calls) := by
  refine afterCalls_induction tended_empty calls fun call _ s hs => ?_
  cases call with
  | nodeShape shape => exact Keeps.apply ((ensures_tended_nodeShape hV hE shape).mono
      (fun _ h => h) (fun _ _ h => h) fun _ _ h => h.1) hs
  | property shape => exact Keeps.apply ((ensures_tended_property hV hE shape).mono
      (fun _ h => h) (fun _ _ h => h) fun _ _ h => h.1) hs

/-- A whole graph is resolved in such states only.  It gives the model of one, or fails
lawfully. -/
theorem resolveAll_upkeep :
    Ensures (Tended g settings V E []) (resolveAll g settings)
      (fun m t => m = t.model ∧ Tended g settings V E [] t)
      (fun e t => Tended g settings V E [] t ∧ E e) := by
  have hnext : ∀ r, Ensures (Tended g settings V E [])
      (do let _ ← resolveNodeShape g settings r) (fun _ => Tended g settings V E [])
      (fun e t => Tended g settings V E [] t ∧ E e) := fun r =>
    (ensures_tended_nodeShape hV hE r).bind fun _ => ensures_pure fun _ h => h
  have hloop := ensures_forM (fun _ => Tended g settings V E []) g.nodeShapes []
    fun _ r _ => hnext r
  have hcheck : Ensures (Tended g settings V E []) checkModel
      (fun _ => Tended g settings V E []) (fun e t => Tended g settings V E [] t ∧ E e) :=
    ensures_get_bind fun s hs => ensures_ofExcept (fun _ _ _ h => h ▸ hs)
      fun _ _ _ h => ⟨h ▸ hs, hE.other _ rfl⟩
  refine hloop.bind fun _ => hcheck.bind fun _ => ensures_get_bind fun s hs => ?_
  have hreport : Ensures (fun t => t = s)
      (report (.finished s.model.extent.objects s.model.extent.intersections
        s.model.extent.unions))
      (fun _ t => s.model = t.model ∧ Tended g settings V E [] t)
      (fun e t => Tended g settings V E [] t ∧ E e) :=
    ensures_report (by
      rintro t rfl
      exact ⟨rfl, hs.log (Event.reports_of_error?_eq_none rfl)⟩)
  exact hreport.bind fun _ => ensures_pure fun _ h => h

end Resolving

end Resolver

end ShaclTypes
