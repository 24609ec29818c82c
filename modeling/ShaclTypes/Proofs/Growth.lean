import ShaclTypes.Resolution.Node
set_option autoImplicit false

/-!
# How a model grows

Resolution adds entries at the end of the lists of a model and fills entries
that it has added before.  `TypeModel.Grows` says that every entry is still where
it was and as it was, and truncation undoes growth.  `TypeModel.outline` forgets
what is filled in after an entry has been added; filling an entry leaves the
outline as it is, and the outline tells whom an entry belongs to and what shape
it was made from.
-/

namespace ShaclTypes

open ShaclTypes.Rdf

/-! ## Growth -/

namespace TypeModel

/-- Every entry of the first model is an entry of the second, unchanged and in
the same place. -/
structure Grows (m m' : TypeModel) : Prop where
  objects : m.objects <+: m'.objects
  composites : ∀ kind, m.composites kind <+: m'.composites kind

theorem Grows.refl (m : TypeModel) : m.Grows m :=
  ⟨List.prefix_refl _, fun _ => List.prefix_refl _⟩

theorem Grows.trans {m₁ m₂ m₃ : TypeModel} (h₁ : m₁.Grows m₂) (h₂ : m₂.Grows m₃) :
    m₁.Grows m₃ :=
  ⟨h₁.objects.trans h₂.objects, fun kind => (h₁.composites kind).trans (h₂.composites kind)⟩

@[simp] theorem composites_addObject (m : TypeModel) (o : ObjectType) (kind : CompositeKind) :
    (m.addObject o).composites kind = m.composites kind := by
  cases kind <;> rfl

@[simp] theorem composites_modifyObject (m : TypeModel) (id : ObjectId)
    (f : ObjectType → ObjectType) (kind : CompositeKind) :
    (m.modifyObject id f).composites kind = m.composites kind := by
  cases kind <;> rfl

theorem composites_addComposite (m : TypeModel) (kind other : CompositeKind)
    (c : ObjectComposite) :
    (m.addComposite kind c).composites other =
      if other = kind then m.composites other ++ [c] else m.composites other := by
  cases kind <;> cases other <;> rfl

theorem composites_setComposite (m : TypeModel) (kind other : CompositeKind) (id : CompositeId)
    (c : ObjectComposite) :
    (m.setComposite kind id c).composites other =
      if other = kind then (m.composites other).set id.index c else m.composites other := by
  cases kind <;> cases other <;> rfl

@[simp] theorem objects_addComposite (m : TypeModel) (kind : CompositeKind)
    (c : ObjectComposite) : (m.addComposite kind c).objects = m.objects := by
  cases kind <;> rfl

@[simp] theorem objects_setComposite (m : TypeModel) (kind : CompositeKind) (id : CompositeId)
    (c : ObjectComposite) : (m.setComposite kind id c).objects = m.objects := by
  cases kind <;> rfl

theorem grows_addObject (m : TypeModel) (o : ObjectType) : m.Grows (m.addObject o) := by
  refine ⟨List.prefix_append _ _, fun kind => ?_⟩
  simp only [composites_addObject, List.prefix_refl]

theorem grows_addComposite (m : TypeModel) (kind : CompositeKind) (c : ObjectComposite) :
    m.Grows (m.addComposite kind c) := by
  refine ⟨?_, fun other => ?_⟩
  · simp only [objects_addComposite, List.prefix_refl]
  rw [composites_addComposite]
  split
  · exact List.prefix_append _ _
  · exact List.prefix_refl _

/-- What is in a list of a model has a number in it. -/
theorem exists_object?_of_mem {m : TypeModel} {o : ObjectType} (h : o ∈ m.objects) :
    ∃ id, m.object? id = some o := by
  obtain ⟨i, hi⟩ := List.mem_iff_getElem?.1 h
  exact ⟨⟨i⟩, hi⟩

theorem exists_composite?_of_mem {m : TypeModel} {kind : CompositeKind} {c : ObjectComposite}
    (h : c ∈ m.composites kind) : ∃ id, m.composite? kind id = some c := by
  obtain ⟨i, hi⟩ := List.mem_iff_getElem?.1 h
  exact ⟨⟨i⟩, hi⟩

theorem exists_kind_of_mem {m : TypeModel} {c : ObjectComposite}
    (h : c ∈ m.intersections ++ m.unions) : ∃ kind, c ∈ m.composites kind :=
  (List.mem_append.1 h).elim (fun hc => ⟨.intersection, hc⟩) fun hc => ⟨.union, hc⟩

theorem getElem?_of_prefix {α : Type} {xs ys : List α} {i : Nat} {a : α} (h : xs <+: ys)
    (hi : xs[i]? = some a) : ys[i]? = some a := by
  obtain ⟨hlt, rfl⟩ := List.getElem?_eq_some_iff.1 hi
  exact List.prefix_iff_getElem?.1 h i hlt

theorem Grows.object? {m m' : TypeModel} {id : ObjectId} {o : ObjectType} (h : m.Grows m')
    (ho : m.object? id = some o) : m'.object? id = some o :=
  getElem?_of_prefix h.objects ho

theorem Grows.composite? {m m' : TypeModel} {kind : CompositeKind} {id : CompositeId}
    {c : ObjectComposite} (h : m.Grows m') (hc : m.composite? kind id = some c) :
    m'.composite? kind id = some c :=
  getElem?_of_prefix (h.composites kind) hc

/-- Changing an entry that lies beyond a model does not touch the model. -/
theorem Grows.modifyObject {m m' : TypeModel} {id : ObjectId} {f : ObjectType → ObjectType}
    (h : m.Grows m') (hid : m.objects.length ≤ id.index) : m.Grows (m'.modifyObject id f) := by
  refine ⟨List.prefix_iff_getElem?.2 fun i hi => ?_, fun kind => ?_⟩
  · have hne : id.index ≠ i := by omega
    simp only [TypeModel.modifyObject, List.getElem?_modify_ne f _ hne]
    exact List.prefix_iff_getElem?.1 h.objects i hi
  · rw [composites_modifyObject]
    exact h.composites kind

theorem Grows.setComposite {m m' : TypeModel} {kind : CompositeKind} {id : CompositeId}
    {c : ObjectComposite} (h : m.Grows m') (hid : (m.composites kind).length ≤ id.index) :
    m.Grows (m'.setComposite kind id c) := by
  refine ⟨?_, fun other => ?_⟩
  · rw [objects_setComposite]
    exact h.objects
  rw [composites_setComposite]
  split
  · next heq =>
    subst heq
    refine List.prefix_iff_getElem?.2 fun i hi => ?_
    have hne : id.index ≠ i := by omega
    rw [List.getElem?_set_ne hne]
    exact List.prefix_iff_getElem?.1 (h.composites other) i hi
  · exact h.composites other

/-- Going back to the extent of a model undoes its growth. -/
theorem Grows.truncate {m m' : TypeModel} (h : m.Grows m') : m'.truncate m.extent = m := by
  have hobjects : m.objects = m'.objects.take m.objects.length :=
    List.prefix_iff_eq_take.1 h.objects
  have hintersections : m.intersections = m'.intersections.take m.intersections.length :=
    List.prefix_iff_eq_take.1 (h.composites .intersection)
  have hunions : m.unions = m'.unions.take m.unions.length :=
    List.prefix_iff_eq_take.1 (h.composites .union)
  unfold TypeModel.truncate extent
  rw [← hobjects, ← hintersections, ← hunions]

end TypeModel

/-! ## Outlines -/

/-- An object type as it is before it is filled. -/
def ObjectType.unfilled (o : ObjectType) : ObjectType :=
  { o with
    properties := []
    parents := []
    ancestors := []
    children := []
    descendants := []
    listItemType := none }

/-- A composite as it is before it is filled. -/
def ObjectComposite.unfilled (c : ObjectComposite) : ObjectComposite := { c with members := [] }

/-- The kind of composite that a node shape stands for; an object type is none. -/
def NodeType.compositeKind? : NodeType → Option CompositeKind
  | object _ => none
  | composite kind _ => some kind

namespace TypeModel

/-- The model with every entry as it was before it was filled. -/
def outline (m : TypeModel) : TypeModel where
  objects := m.objects.map ObjectType.unfilled
  intersections := m.intersections.map ObjectComposite.unfilled
  unions := m.unions.map ObjectComposite.unfilled

/-- The identifier of the shape that an entry was made for. -/
def owner? (m : TypeModel) : NodeType → Option Term
  | .object id => (m.object? id).map fun o => o.name.identifier
  | .composite kind id => (m.composite? kind id).map fun c => c.name.identifier

theorem owner?_of_object? {m : TypeModel} {id : ObjectId} {o : ObjectType}
    (h : m.object? id = some o) : m.owner? (.object id) = some o.name.identifier := by
  rw [owner?, h, Option.map_some]

theorem owner?_of_composite? {m : TypeModel} {kind : CompositeKind} {id : CompositeId}
    {c : ObjectComposite} (h : m.composite? kind id = some c) :
    m.owner? (.composite kind id) = some c.name.identifier := by
  rw [owner?, h, Option.map_some]

/-- The kinds of identifiers that stand for the objects of an external type. -/
def external? (m : TypeModel) : NodeType → Option NodeKinds
  | .object id => ((m.object? id).filter ObjectType.isExternal).map ObjectType.kinds
  | .composite _ _ => none

theorem object?_outline (m : TypeModel) (id : ObjectId) :
    m.outline.object? id = (m.object? id).map ObjectType.unfilled := by
  simp [outline, object?]

theorem composite?_outline (m : TypeModel) (kind : CompositeKind) (id : CompositeId) :
    m.outline.composite? kind id = (m.composite? kind id).map ObjectComposite.unfilled := by
  cases kind <;> simp [outline, composite?, composites]

theorem owner?_outline (m : TypeModel) (type : NodeType) :
    m.outline.owner? type = m.owner? type := by
  cases type with
  | object id =>
    simp only [owner?, object?_outline, Option.map_map]
    rfl
  | composite kind id =>
    simp only [owner?, composite?_outline, Option.map_map]
    rfl

theorem external?_outline (m : TypeModel) (type : NodeType) :
    m.outline.external? type = m.external? type := by
  cases type with
  | object id =>
    simp only [external?, object?_outline]
    cases m.object? id with
    | none => rfl
    | some o => cases h : o.isExternal <;> simp [ObjectType.unfilled, Option.filter, h]
  | composite kind id => rfl

/-- A model has an entry if and only if the entry belongs to someone. -/
theorem holds_iff_owner {m : TypeModel} {type : NodeType} :
    m.extent.holds type = true ↔ ∃ t, m.owner? type = some t := by
  rw [← Option.isSome_iff_exists]
  cases type with
  | object id =>
    refine decide_eq_true_iff.trans ?_
    simp [owner?, object?, extent]
  | composite kind id =>
    refine decide_eq_true_iff.trans ?_
    cases kind <;> simp [owner?, composite?, composites, Extent.composites, extent]

theorem outline_addObject (m : TypeModel) (o : ObjectType) :
    (m.addObject o).outline = m.outline.addObject o.unfilled := by
  simp [outline, addObject]

theorem outline_addComposite (m : TypeModel) (kind : CompositeKind) (c : ObjectComposite) :
    (m.addComposite kind c).outline = m.outline.addComposite kind c.unfilled := by
  cases kind <;> simp [outline, addComposite]

theorem object?_addObject (m : TypeModel) (o : ObjectType) :
    (m.addObject o).object? m.nextObject = some o := by
  simp [object?, addObject, nextObject]

theorem composite?_addComposite (m : TypeModel) (kind : CompositeKind) (c : ObjectComposite) :
    (m.addComposite kind c).composite? kind (m.nextComposite kind) = some c := by
  simp [composite?, composites_addComposite, nextComposite]

/-- A new object type is the only new entry. -/
theorem owner?_addObject {m : TypeModel} {o : ObjectType} {type : NodeType} {owner : Term}
    (h : (m.addObject o).owner? type = some owner) :
    type = .object m.nextObject ∨ m.owner? type = some owner := by
  cases type with
  | composite kind id => exact .inr (by simpa [owner?, composite?] using h)
  | object id =>
    by_cases hlt : id.index < m.objects.length
    · right
      simpa [owner?, object?, addObject, List.getElem?_append_left hlt] using h
    · left
      have hle : id.index ≤ m.objects.length := by
        obtain ⟨o', ho', -⟩ := Option.map_eq_some_iff.1 h
        have hbound := (List.getElem?_eq_some_iff.1 ho').1
        simp only [addObject, List.length_append, List.length_singleton] at hbound
        omega
      have heq : id.index = m.objects.length := by omega
      simp [nextObject, ← heq]

/-- A new composite is the only new entry. -/
theorem owner?_addComposite {m : TypeModel} {kind : CompositeKind} {c : ObjectComposite}
    {type : NodeType} {owner : Term} (h : (m.addComposite kind c).owner? type = some owner) :
    type = .composite kind (m.nextComposite kind) ∨ m.owner? type = some owner := by
  cases type with
  | object id => exact .inr (by simpa [owner?, object?] using h)
  | composite other id =>
    by_cases hkind : other = kind
    · subst hkind
      by_cases hlt : id.index < (m.composites other).length
      · right
        simpa [owner?, composite?, composites_addComposite, List.getElem?_append_left hlt] using h
      · left
        have hle : id.index ≤ (m.composites other).length := by
          obtain ⟨c', hc', -⟩ := Option.map_eq_some_iff.1 h
          have hbound := (List.getElem?_eq_some_iff.1 hc').1
          simp only [composites_addComposite, if_true, List.length_append,
            List.length_singleton] at hbound
          omega
        have heq : id.index = (m.composites other).length := by omega
        simp [nextComposite, ← heq]
    · right
      simpa [owner?, composite?, composites_addComposite, hkind] using h

/-- Filling an object type leaves the outline as it is. -/
theorem outline_modifyObject (m : TypeModel) (id : ObjectId) {f : ObjectType → ObjectType}
    (hf : ∀ o, (f o).unfilled = o.unfilled) : (m.modifyObject id f).outline = m.outline := by
  have hobjects : (m.objects.modify id.index f).map ObjectType.unfilled =
      m.objects.map ObjectType.unfilled := by
    refine List.ext_getElem? fun i => ?_
    rw [List.getElem?_map, List.getElem?_map, List.getElem?_modify]
    cases m.objects[i]? with
    | none => rfl
    | some o => by_cases h : id.index = i <;> simp [h, hf]
  simp only [outline, modifyObject, hobjects]

theorem outline_setComposite {m : TypeModel} {kind : CompositeKind} {id : CompositeId}
    {c d : ObjectComposite} (hc : m.composite? kind id = some c) (hd : d.unfilled = c.unfilled) :
    (m.setComposite kind id d).outline = m.outline := by
  have hset : ((m.composites kind).set id.index d).map ObjectComposite.unfilled =
      (m.composites kind).map ObjectComposite.unfilled := by
    refine List.ext_getElem? fun i => ?_
    rw [List.getElem?_map, List.getElem?_map]
    by_cases h : id.index = i
    · subst h
      rw [List.getElem?_set_self (List.getElem?_eq_some_iff.1 hc).1,
        show (m.composites kind)[id.index]? = some c from hc, Option.map_some, Option.map_some, hd]
    · rw [List.getElem?_set_ne h]
  cases kind <;> simpa [outline, setComposite, composites] using hset

/-- A composite that is replaced is found where it was. -/
theorem composite?_setComposite {m : TypeModel} {kind : CompositeKind} {id : CompositeId}
    {c d : ObjectComposite} (hc : m.composite? kind id = some c) :
    (m.setComposite kind id d).composite? kind id = some d := by
  rw [composite?, composites_setComposite, if_pos rfl]
  exact List.getElem?_set_self (List.getElem?_eq_some_iff.1 hc).1

/-- A composite is filled where it is. -/
theorem fillComposite_eq {m m' : TypeModel} {kind : CompositeKind} {id : CompositeId}
    {members : List ObjectId} (h : m.fillComposite kind id members = .ok m') :
    (m.composite? kind id = none ∧ m' = m) ∨
      ∃ c, m.composite? kind id = some c ∧ 2 ≤ members.length ∧
        m' = m.setComposite kind id { c with members } := by
  unfold fillComposite at h
  split at h
  · next hc => exact .inl ⟨hc, (Except.ok.inj h).symm⟩
  · next c hc =>
    cases hfill : c.fill members with
    | error e => simp [hfill, Except.map] at h
    | ok d =>
      rw [hfill] at h
      obtain ⟨htwo, rfl⟩ := ObjectComposite.fill_eq_ok.1 hfill
      exact .inr ⟨c, hc, htwo, (Except.ok.inj h).symm⟩

/-- Filling a composite leaves the outline as it is. -/
theorem outline_fillComposite {m m' : TypeModel} {kind : CompositeKind} {id : CompositeId}
    {members : List ObjectId} (h : m.fillComposite kind id members = .ok m') :
    m'.outline = m.outline := by
  rcases fillComposite_eq h with ⟨-, rfl⟩ | ⟨c, hc, -, rfl⟩
  · rfl
  · exact outline_setComposite hc rfl

/-- An object type beyond the end of a model is not in it. -/
theorem not_holds_object {m : TypeModel} {id : ObjectId} (h : m.objects.length ≤ id.index) :
    m.extent.holds (.object id) = false :=
  decide_eq_false (Nat.not_lt.2 h)

theorem not_holds_composite {m : TypeModel} {kind : CompositeKind} {id : CompositeId}
    (h : (m.composites kind).length ≤ id.index) :
    m.extent.holds (.composite kind id) = false := by
  cases kind <;> exact decide_eq_false (Nat.not_lt.2 h)

end TypeModel

end ShaclTypes
