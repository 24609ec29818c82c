import ShaclTypes.Proofs.Catalogue
import ShaclTypes.Proofs.Typing
set_option autoImplicit false

/-!
# Intact models

A model is intact if its entries refer to object types that are there and if all its
value types are as some law wants them, where a law is a property of types that every
way to make a type gives or passes on (`TypeLaw`).  There is one lemma for each change
that a resolution makes to a model.  A composite has members only once it is filled,
so what is said of the number of members is said of resolved composites (`Intact`).
-/

namespace ShaclTypes

open ShaclTypes.Rdf

/-! ## Laws of types -/

/-- A property of the types of a model that stays while the model is built further, and
that every way to make a type gives or passes on: a scalar type by the constraints of its
shape and the default value in force there. -/
structure TypeLaw (g : ShapesGraph) (V : ValueType → TypeModel → Prop) : Prop where
  retains : ∀ v m m', m.Retains m' → V v m → V v m'
  reference : ∀ m context type, m.extent.holds type = true → V (m.referenceType context type) m
  scalar : ∀ m (shape : g.Member) (inherited : Inherited) v,
    shape.1.constraints.composition? = none →
    scalarType? ⟨shape.1.constraints, (inherited.within shape.1).defaultValue⟩ = some v → V v m
  collapse : ∀ m kind hasFixedValue members v, (∀ member ∈ members, V member m) →
    ValueType.collapse kind hasFixedValue members = .ok v → V v m
  wrap : ∀ m (c : Cardinality) item, V item m → V (c.wrap item) m

/-- What references have, all types have that are assembled from them. -/
theorem TypeLaw.of_assembled {g : ShapesGraph} {V : ValueType → TypeModel → Prop}
    (hV : TypeLaw g V) {m : TypeModel} {inherited : Inherited} {shape : g.Member} {v : ValueType}
    {introductions : List (Introduction g)} (h : Assembled g inherited shape v introductions)
    (hreferences : ∀ i ∈ introductions, V i.type m) : V v m := by
  induction h with
  | @scalar inherited shape item hcomposition hitem =>
    exact hV.wrap m _ item (hV.scalar m shape inherited item hcomposition hitem)
  | @composed inherited shape composition item parts _ _ _ _ hitem ih =>
    refine hV.wrap m _ item (hV.collapse m _ _ _ item ?_ hitem)
    refine List.forall_mem_map.2 fun part hpart => ?_
    have hpart' : ∀ i ∈ part.introductions shape, V i.type m := fun i hi =>
      hreferences i (List.mem_flatMap.2 ⟨part, hpart, hi⟩)
    cases part with
    | reference type => exact hpart' _ List.mem_cons_self
    | inline r type is =>
      refine ih r type is hpart fun i hi => ?_
      exact hpart' ⟨shape :: i.way, i.type⟩ (List.mem_map.2 ⟨i, hi, rfl⟩)

/-! ## Intact entries -/

namespace TypeModel

theorem Retains.holds {m m' : TypeModel} (h : m.Retains m') {type : NodeType}
    (hheld : m.extent.holds type = true) : m'.extent.holds type = true := by
  obtain ⟨owner, howner⟩ := holds_iff_owner.1 hheld
  exact holds_iff_owner.2 ⟨owner, h type owner howner⟩

theorem mem_objects_modifyObject {m : TypeModel} {id : ObjectId} {f : ObjectType → ObjectType}
    {o : ObjectType} (h : o ∈ (m.modifyObject id f).objects) :
    o ∈ m.objects ∨ ∃ o', m.object? id = some o' ∧ o = f o' := by
  obtain ⟨i, hi⟩ := List.mem_iff_getElem?.1 h
  rw [modifyObject, List.getElem?_modify] at hi
  obtain ⟨o', ho', rfl⟩ := Option.map_eq_some_iff.1 hi
  by_cases heq : id.index = i
  · subst heq
    exact .inr ⟨o', ho', if_pos rfl⟩
  · rw [if_neg heq]
    exact .inl (List.mem_of_getElem? ho')

theorem mem_composites_setComposite {m : TypeModel} {kind other : CompositeKind}
    {id : CompositeId} {c d : ObjectComposite}
    (h : d ∈ (m.setComposite kind id c).composites other) : d ∈ m.composites other ∨ d = c := by
  rw [composites_setComposite] at h
  split at h
  · exact List.mem_or_eq_of_mem_set h
  · exact .inl h

end TypeModel

/-- The object types that an object type is related to. -/
def ObjectType.relatives (o : ObjectType) : List ObjectId :=
  o.parents ++ o.ancestors ++ o.children ++ o.descendants

/-- The relatives of an object type are in the model, and its types obey a law. -/
structure ObjectType.Intact (V : ValueType → TypeModel → Prop) (m : TypeModel)
    (o : ObjectType) : Prop where
  relatives : ∀ id ∈ o.relatives, m.extent.holds (.object id) = true
  properties : ∀ p ∈ o.properties, V p.type m
  items : ∀ v, o.listItemType = some v → V v m

/-- The members of a composite are in the model, each once. -/
structure ObjectComposite.Intact (m : TypeModel) (c : ObjectComposite) : Prop where
  distinct : c.members.Nodup
  members : ∀ id ∈ c.members, m.extent.holds (.object id) = true

/-- The entries of a model are intact. -/
structure TypeModel.Intact (V : ValueType → TypeModel → Prop) (m : TypeModel) : Prop where
  objects : ∀ o ∈ m.objects, o.Intact V m
  composites : ∀ kind, ∀ c ∈ m.composites kind, c.Intact m

section Changes

variable {V : ValueType → TypeModel → Prop} {m m' : TypeModel}

theorem ObjectType.Intact.retains {o : ObjectType}
    (hV : ∀ v m m', m.Retains m' → V v m → V v m') (h : o.Intact V m)
    (hretains : m.Retains m') : o.Intact V m' where
  relatives id hid := hretains.holds (h.relatives id hid)
  properties p hp := hV _ _ _ hretains (h.properties p hp)
  items v hv := hV _ _ _ hretains (h.items v hv)

theorem ObjectComposite.Intact.retains {c : ObjectComposite} (h : c.Intact m)
    (hretains : m.Retains m') : c.Intact m' where
  distinct := h.distinct
  members id hid := hretains.holds (h.members id hid)

/-- An object type that is not filled refers to nothing. -/
theorem ObjectType.intact_of_unfilled {o : ObjectType} (h : o.unfilled = o) : o.Intact V m := by
  rw [← h]
  refine ⟨fun id hid => ?_, fun p hp => ?_, fun v hv => ?_⟩
  · simp [relatives, unfilled] at hid
  · cases hp
  · cases hv

theorem ObjectComposite.intact_of_unfilled {c : ObjectComposite} (h : c.members = []) :
    c.Intact m := by
  refine ⟨?_, ?_⟩
  · rw [h]
    exact List.nodup_nil
  · rw [h]
    intro _ hid
    cases hid

namespace TypeModel.Intact

variable (hV : ∀ v m m', m.Retains m' → V v m → V v m') (h : m.Intact V)
include hV h

theorem addObject {o : ObjectType} (ho : o.unfilled = o) : (m.addObject o).Intact V := by
  have hretains : m.Retains (m.addObject o) := (m.grows_addObject o).retains
  refine ⟨fun o' ho' => ?_, fun kind c hc => ?_⟩
  · rcases List.mem_append.1 ho' with hold | hnew
    · exact (h.objects o' hold).retains hV hretains
    · obtain rfl := List.mem_singleton.1 hnew
      exact ObjectType.intact_of_unfilled ho
  · rw [composites_addObject] at hc
    exact (h.composites kind c hc).retains hretains

theorem addComposite {kind : CompositeKind} {c : ObjectComposite} (hc : c.members = []) :
    (m.addComposite kind c).Intact V := by
  have hretains : m.Retains (m.addComposite kind c) := (m.grows_addComposite kind c).retains
  refine ⟨fun o ho => ?_, fun other d hd => ?_⟩
  · rw [objects_addComposite] at ho
    exact (h.objects o ho).retains hV hretains
  · have hmem : d ∈ m.composites other ∨ d = c := by
      rw [composites_addComposite] at hd
      split at hd
      · exact (List.mem_append.1 hd).imp_right List.mem_singleton.1
      · exact .inl hd
    rcases hmem with hold | rfl
    · exact (h.composites other d hold).retains hretains
    · exact ObjectComposite.intact_of_unfilled hc

/-- Filling an object type with what is intact. -/
theorem modifyObject {id : ObjectId} {f : ObjectType → ObjectType}
    (hf : ∀ o, (f o).unfilled = o.unfilled)
    (hfilled : ∀ o, o.Intact V m → (f o).Intact V m) :
    (m.modifyObject id f).Intact V := by
  have hretains : m.Retains (m.modifyObject id f) :=
    .of_outline_eq (m.outline_modifyObject id hf)
  refine ⟨fun o ho => ?_, fun kind c hc => ?_⟩
  · rcases mem_objects_modifyObject ho with hold | ⟨o', ho', rfl⟩
    · exact (h.objects o hold).retains hV hretains
    · exact (hfilled o' (h.objects o' (List.mem_of_getElem? ho'))).retains hV hretains
  · rw [composites_modifyObject] at hc
    exact (h.composites kind c hc).retains hretains

/-- Filling a composite with object types that are there, each once. -/
theorem fillComposite {kind : CompositeKind} {id : CompositeId} {ids : List ObjectId}
    (hdistinct : ids.Nodup) (hheld : ∀ id ∈ ids, m.extent.holds (.object id) = true)
    (hfill : m.fillComposite kind id ids = .ok m') : m'.Intact V := by
  have hretains : m.Retains m' := .of_outline_eq (outline_fillComposite hfill)
  rcases fillComposite_eq hfill with ⟨-, rfl⟩ | ⟨c, -, -, rfl⟩
  · exact h
  refine ⟨fun o ho => ?_, fun other d hd => ?_⟩
  · rw [objects_setComposite] at ho
    exact (h.objects o ho).retains hV hretains
  · rcases mem_composites_setComposite hd with hold | rfl
    · exact (h.composites other d hold).retains hretains
    · exact ObjectComposite.Intact.retains ⟨hdistinct, hheld⟩ hretains

end TypeModel.Intact

end Changes

/-! ## Intact states -/

/-- The model is intact, and a node shape that is resolved to a composite has a
composite with two members or more. -/
structure Intact (V : ValueType → TypeModel → Prop) (s : State) : Prop where
  model : s.model.Intact V
  filled : ∀ identifier kind id, (identifier, .composite kind id) ∈ s.resolved →
    ∃ c, s.model.composite? kind id = some c ∧ 2 ≤ c.members.length

namespace Intact

variable {V : ValueType → TypeModel → Prop} {s t : State}

theorem of_sameTypes (h : Intact V s) (hsame : s.SameTypes t) : Intact V t := by
  refine ⟨?_, ?_⟩
  · rw [hsame.model]
    exact h.model
  · rw [hsame.model, hsame.resolved]
    exact h.filled

theorem log (h : Intact V s) (event : Event) : Intact V (s.log event) :=
  h.of_sameTypes ((State.SameTypes.refl s).log event)

/-- Changing the model without touching the composites that are resolved. -/
theorem of_model (h : Intact V s) {m : TypeModel} (hm : m.Intact V)
    (hkept : ∀ identifier kind id c, (identifier, .composite kind id) ∈ s.resolved →
      s.model.composite? kind id = some c → m.composite? kind id = some c) :
    Intact V { s with model := m } := by
  refine ⟨hm, fun identifier kind id hresolved => ?_⟩
  obtain ⟨c, hc, htwo⟩ := h.filled identifier kind id hresolved
  exact ⟨c, hkept identifier kind id c hresolved hc, htwo⟩

theorem record (h : Intact V s) {identifier : Term} {type : NodeType}
    (hfilled : ∀ kind id, type = .composite kind id →
      ∃ c, s.model.composite? kind id = some c ∧ 2 ≤ c.members.length) :
    Intact V (s.record identifier type) := by
  refine ⟨h.model, fun other kind id hresolved => ?_⟩
  rcases List.mem_cons.1 hresolved with hnew | hold
  · exact hfilled kind id (Prod.mk.inj hnew).2.symm
  · exact h.filled other kind id hold

end Intact

end ShaclTypes
