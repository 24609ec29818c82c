import ShaclTypes.Proofs.Catalogue
set_option autoImplicit false

/-!
# Models without numbers

Two models may have the same entries under different numbers.  To compare them,
every number in an entry is replaced by the identifier of the shape that the entry
with this number belongs to (`ObjectType.named`, `ObjectComposite.named`).  What
an entry is called by then depends on no numbering, so it can be read off the
numbers of the catalogue (`ShapesGraph.slotName`).
-/

namespace ShaclTypes

open ShaclTypes.Rdf

/-! ## Entries without numbers -/

/-- The type of a value, with identifiers of shapes in place of numbers of entries. -/
inductive NamedType where
  | literal (type : LiteralType)
  | identifier (type : IdentifierType)
  | composite (kind : CompositeKind) (members : List NamedType)
  | set (item : NamedType) (minCount : Nat)
  | option (item : NamedType)
  | object (owner : Option Term) (inline : Bool)
  | objectComposite (kind : CompositeKind) (owner : Option Term)

/-- A property, with identifiers in place of numbers. -/
structure NamedProperty where
  name : Name
  path : Iri
  type : NamedType
  visibility : Visibility

/-- An object type, with identifiers in place of numbers. -/
structure NamedObject where
  /-- what the object type has of its own -/
  outline : ObjectType
  properties : List NamedProperty
  parents : List (Option Term)
  ancestors : List (Option Term)
  children : List (Option Term)
  descendants : List (Option Term)
  listItemType : Option NamedType

/-- A composite, with identifiers in place of numbers. -/
structure NamedComposite where
  /-- what the composite has of its own -/
  outline : ObjectComposite
  members : List (Option Term)

namespace ValueType

mutual

/-- The type with the owner of an entry in place of the number of the entry. -/
def named (owner : NodeType → Option Term) : ValueType → NamedType
  | literal type => .literal type
  | identifier type => .identifier type
  | composite kind members => .composite kind (namedList owner members)
  | set item minCount => .set (item.named owner) minCount
  | option item => .option (item.named owner)
  | object id inline => .object (owner (.object id)) inline
  | objectComposite kind id => .objectComposite kind (owner (.composite kind id))

/-- The types of a list with owners in place of numbers. -/
def namedList (owner : NodeType → Option Term) : List ValueType → List NamedType
  | [] => []
  | t :: rest => t.named owner :: namedList owner rest

end

end ValueType

/-- The property with owners in place of numbers. -/
def Property.named (owner : NodeType → Option Term) (p : Property) : NamedProperty where
  name := p.name
  path := p.path
  type := p.type.named owner
  visibility := p.visibility

/-- The object type with owners in place of numbers. -/
def ObjectType.named (owner : NodeType → Option Term) (o : ObjectType) : NamedObject where
  outline := o.unfilled
  properties := o.properties.map (Property.named owner)
  parents := o.parents.map fun id => owner (.object id)
  ancestors := o.ancestors.map fun id => owner (.object id)
  children := o.children.map fun id => owner (.object id)
  descendants := o.descendants.map fun id => owner (.object id)
  listItemType := o.listItemType.map (ValueType.named owner)

/-- The composite with owners in place of numbers. -/
def ObjectComposite.named (owner : NodeType → Option Term) (c : ObjectComposite) :
    NamedComposite where
  outline := c.unfilled
  members := c.members.map fun id => owner (.object id)

/-- The two models have entries for the same identifiers in the same lists, and
the entries for an identifier are the same up to their numbers. -/
structure TypeModel.Alike (m m' : TypeModel) : Prop where
  objectNames : (m.objects.map fun o => o.name.identifier).Perm
    (m'.objects.map fun o => o.name.identifier)
  compositeNames : ∀ kind, ((m.composites kind).map fun c => c.name.identifier).Perm
    ((m'.composites kind).map fun c => c.name.identifier)
  objects : ∀ o ∈ m.objects, ∀ o' ∈ m'.objects, o.name.identifier = o'.name.identifier →
    o.named m.owner? = o'.named m'.owner?
  composites : ∀ kind, ∀ c ∈ m.composites kind, ∀ c' ∈ m'.composites kind,
    c.name.identifier = c'.name.identifier → c.named m.owner? = c'.named m'.owner?

/-! ## Naming and renumbering -/

section Renumbering

variable {ρ : Renumbering} {owner owner' : NodeType → Option Term}

mutual

theorem ValueType.named_renumber (h : ∀ type, owner type = owner' (type.renumber ρ)) :
    (t : ValueType) → t.named owner = (t.renumber ρ).named owner'
  | .literal _ | .identifier _ => by simp only [renumber, named]
  | .composite _ members => by
    simp only [renumber, named, ValueType.namedList_renumber h members]
  | .set item _ => by simp only [renumber, named, ValueType.named_renumber h item]
  | .option item => by simp only [renumber, named, ValueType.named_renumber h item]
  | .object _ _ => by simp only [renumber, named, h, NodeType.renumber]
  | .objectComposite _ _ => by simp only [renumber, named, h, NodeType.renumber]

theorem ValueType.namedList_renumber (h : ∀ type, owner type = owner' (type.renumber ρ)) :
    (ts : List ValueType) → namedList owner ts = namedList owner' (renumberList ρ ts)
  | [] => rfl
  | t :: rest => by
    simp only [renumberList, namedList, ValueType.named_renumber h t,
      ValueType.namedList_renumber h rest]

end

variable (h : ∀ type, owner type = owner' (type.renumber ρ))
include h

/-- Entries are called by the same names before and after they are renumbered. -/
theorem ObjectType.named_renumber (o : ObjectType) :
    o.named owner = (o.renumber ρ).named owner' := by
  have hid : ∀ id, owner (.object id) = owner' (.object (ρ.object id)) := fun id => h (.object id)
  have htype : ValueType.named owner = fun t => (t.renumber ρ).named owner' :=
    funext (ValueType.named_renumber h)
  have hproperty : Property.named owner = fun p => (p.renumber ρ).named owner' := by
    funext p
    simp only [Property.named, Property.renumber, htype]
  simp only [ObjectType.named, ObjectType.renumber, ObjectType.unfilled, List.map_map,
    Option.map_map, Function.comp_def, hid, htype, hproperty]

theorem ObjectComposite.named_renumber (c : ObjectComposite) :
    c.named owner = (c.renumber ρ).named owner' := by
  have hid : ∀ id, owner (.object id) = owner' (.object (ρ.object id)) := fun id => h (.object id)
  simp only [ObjectComposite.named, ObjectComposite.renumber, List.map_map, Function.comp_def,
    hid, ObjectComposite.unfilled]

end Renumbering

namespace ShapesGraph

variable {g : ShapesGraph} {n : Namer} {places : List (Term × NodeType)} {s : State}

/-- The identifier that a slot of the catalogue is for. -/
def slotName (g : ShapesGraph) : NodeType → Option Term
  | .object id => g.names[id.index]?
  | .composite _ id => g.names[id.index]?

/-- In a sound state, an entry and its slot are for the same identifier. -/
theorem owner?_eq_slotName {admitted : g.Member → Prop} (hs : Sound n admitted places s)
    (type : NodeType) :
    s.model.owner? type = g.slotName (type.renumber (g.numbering s.model)) := by
  have hslot : ∀ i, s.model.owner? type = g.names[g.slotOf (s.model.owner? type) i]? := by
    intro i
    cases howner : s.model.owner? type with
    | none => simp only [slotOf, List.getElem?_eq_none (Nat.le_add_right _ i)]
    | some owner =>
      exact (List.getElem?_idxOf (owner_mem_names hs howner)).symm
  cases type with
  | object id => exact hslot id.index
  | composite kind id => exact hslot id.index

end ShapesGraph

end ShaclTypes
