import ShaclTypes.Proofs.Typing
set_option autoImplicit false

/-!
# Models without chosen names

An entry holds what a namer has chosen for it: compact IRIs and the name that is emitted,
and what its settings say where the shape does not.  `TypeModel.bare` erases just this.
What a namer contributes to an entry is all erased, so that two namers give the same bare
entries, and every operation on models goes through: an operation on a model does to the
bare model what it does to the model, and a question about a model has the same answer for
the bare one.
-/

namespace ShaclTypes

open ShaclTypes.Rdf

/-! ## Erasing -/

/-- The name without what depends on prefixes and settings. -/
def Name.bare (n : Name) : Name :=
  { n with curie := none, path := n.path.map fun p => { p with curie := none }, sanitized := "" }

/-- The property without a chosen name. -/
def Property.bare (p : Property) : Property := { p with name := p.name.bare }

/-- The object type without chosen names and without what the settings decide. -/
def ObjectType.bare (o : ObjectType) : ObjectType :=
  { o with
    name := o.name.bare
    exported := true
    identifierPropertyName := ""
    typeDiscriminatorPropertyName := ""
    properties := o.properties.map Property.bare }

/-- The composite without a chosen name and without what the settings decide. -/
def ObjectComposite.bare (c : ObjectComposite) : ObjectComposite :=
  { c with name := c.name.bare, exported := true }

/-- The model of the bare entries. -/
def TypeModel.bare (m : TypeModel) : TypeModel where
  objects := m.objects.map ObjectType.bare
  intersections := m.intersections.map ObjectComposite.bare
  unions := m.unions.map ObjectComposite.bare

/-- The state with a bare model. -/
def State.bare (s : State) : State := { s with model := s.model.bare }

/-! ## New entries -/

namespace Namer

variable (n n' : Namer) (s : Shape)

theorem bare_name : (n.name s).bare = (n'.name s).bare := by
  simp only [Name.bare, name, pathName?, Option.map_map]
  rfl

theorem bare_objectType : (n.objectType s).bare = (n'.objectType s).bare := by
  simp only [ObjectType.bare, objectType, bare_name n n']

theorem bare_objectComposite : (n.objectComposite s).bare = (n'.objectComposite s).bare := by
  simp only [ObjectComposite.bare, objectComposite, bare_name n n']

end Namer

/-! ## Questions -/

namespace ObjectType

variable (o : ObjectType)

theorem property?_bare (path : Iri) :
    o.bare.property? path = (o.property? path).map Property.bare := by
  simp only [property?, bare, List.find?_map]
  rfl

theorem itemTypeAs?_bare (id : ObjectId) : o.bare.itemTypeAs? id = o.itemTypeAs? id := by
  unfold itemTypeAs?
  rw [property?_bare, property?_bare, show o.bare.properties.length = o.properties.length by
    simp [bare]]
  cases o.property? Vocabulary.rdf.first <;> cases o.property? Vocabulary.rdf.rest <;> rfl

end ObjectType

namespace TypeModel

variable (m : TypeModel)

theorem composites_bare (kind : CompositeKind) :
    m.bare.composites kind = (m.composites kind).map ObjectComposite.bare := by
  cases kind <;> rfl

theorem object?_bare (id : ObjectId) : m.bare.object? id = (m.object? id).map ObjectType.bare :=
  List.getElem?_map

theorem composite?_bare (kind : CompositeKind) (id : CompositeId) :
    m.bare.composite? kind id = (m.composite? kind id).map ObjectComposite.bare := by
  rw [composite?, composites_bare]
  exact List.getElem?_map

theorem extent_bare : m.bare.extent = m.extent := by
  simp only [extent, bare, List.length_map]

theorem nextObject_bare : m.bare.nextObject = m.nextObject := by
  simp only [nextObject, bare, List.length_map]

theorem nextComposite_bare (kind : CompositeKind) :
    m.bare.nextComposite kind = m.nextComposite kind := by
  simp only [nextComposite, composites_bare, List.length_map]

/-- The check of a model looks at members only. -/
theorem validate_bare : m.bare.validate = m.validate := by
  have hfind : (m.bare.intersections ++ m.bare.unions).find? (fun c => c.members.length < 2) =
      ((m.intersections ++ m.unions).find? fun c => c.members.length < 2).map
        ObjectComposite.bare := by
    simp only [bare, ← List.map_append, List.find?_map]
    rfl
  unfold validate
  rw [hfind]
  cases (m.intersections ++ m.unions).find? fun c => c.members.length < 2 <;> rfl

theorem referenceType_bare (context : Inherited) (type : NodeType) :
    m.bare.referenceType context type = m.referenceType context type := by
  cases type with
  | composite kind id => rfl
  | object id =>
    simp only [referenceType, object?_bare]
    cases m.object? id with
    | none => rfl
    | some o => cases h : o.isExternal <;> simp [ObjectType.bare, Option.filter, h]

theorem itemType?_bare (g : ShapesGraph) (shape : Shape) (id : ObjectId) :
    Resolver.itemType? g shape id m.bare = Resolver.itemType? g shape id m := by
  unfold Resolver.itemType?
  rw [object?_bare]
  cases m.object? id with
  | none => rfl
  | some o => simp only [Option.map_some, Option.bind_some, ObjectType.itemTypeAs?_bare]

/-! ## Operations -/

theorem bare_addObject (o : ObjectType) : (m.addObject o).bare = m.bare.addObject o.bare := by
  simp [bare, addObject]

theorem bare_addComposite (kind : CompositeKind) (c : ObjectComposite) :
    (m.addComposite kind c).bare = m.bare.addComposite kind c.bare := by
  cases kind <;> simp [bare, addComposite]

/-- Changing an object type changes the bare object type, if the change goes through. -/
theorem bare_modifyObject (id : ObjectId) {f f' : ObjectType → ObjectType}
    (hf : ∀ o, (f o).bare = f' o.bare) :
    (m.modifyObject id f).bare = m.bare.modifyObject id f' := by
  have hobjects : (m.objects.modify id.index f).map ObjectType.bare =
      (m.objects.map ObjectType.bare).modify id.index f' := by
    refine List.ext_getElem? fun i => ?_
    rw [List.getElem?_map, List.getElem?_modify, List.getElem?_modify, List.getElem?_map]
    cases m.objects[i]? with
    | none => rfl
    | some o => by_cases h : id.index = i <;> simp [h, hf]
  simp only [bare, modifyObject, hobjects]

theorem bare_setComposite (kind : CompositeKind) (id : CompositeId) (c : ObjectComposite) :
    (m.setComposite kind id c).bare = m.bare.setComposite kind id c.bare := by
  cases kind <;> simp [bare, setComposite, List.map_set]

theorem bare_fillComposite (kind : CompositeKind) (id : CompositeId) (members : List ObjectId) :
    (m.fillComposite kind id members).map bare = m.bare.fillComposite kind id members := by
  unfold fillComposite
  rw [composite?_bare]
  cases m.composite? kind id with
  | none => rfl
  | some c =>
    simp only [Option.map_some, ObjectComposite.fill]
    split
    · rfl
    · simp only [Except.map, bare_setComposite]
      rfl

theorem bare_truncate (e : Extent) : (m.truncate e).bare = m.bare.truncate e := by
  simp only [bare, truncate, List.map_take]

end TypeModel

end ShaclTypes
