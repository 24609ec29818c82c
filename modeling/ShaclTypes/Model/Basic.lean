import ShaclTypes.Model.Name
import ShaclTypes.Model.ValueType
set_option autoImplicit false

/-!
# Type models

A type model has three lists of entries: object types, intersections of object
types and unions of object types.  An entry is referred to by its position, so
entries are only ever added at the end, and may be changed in place while the
rest of the model is built around them.  What was added after a certain moment
is dropped by cutting the lists back to the lengths that they had then
(`TypeModel.extent`, `TypeModel.truncate`).
-/

namespace ShaclTypes

open ShaclTypes.Rdf

/-! ## Entries -/

/-- A property of an object type. -/
structure Property where
  name : Name
  /-- the predicate that leads to the values -/
  path : Iri
  type : ValueType
  visibility : Visibility
  deriving Repr, Inhabited

/-- A type of objects. -/
structure ObjectType where
  name : Name
  comment : Option String := none
  isAbstract : Bool := false
  exported : Bool := true
  isExternal : Bool := false
  kinds : NodeKinds := .identifiers
  mintingStrategy : Option MintingStrategy := none
  rdfType : Option Iri := none
  identifierPropertyName : String
  typeDiscriminatorPropertyName : String
  properties : List Property := []
  parents : List ObjectId := []
  ancestors : List ObjectId := []
  children : List ObjectId := []
  descendants : List ObjectId := []
  /-- the type of the items, if the objects are the cells of a list -/
  listItemType : Option ValueType := none
  deriving Repr, Inhabited

namespace ObjectType

/-- The first property with a predicate. -/
def property? (o : ObjectType) (path : Iri) : Option Property :=
  o.properties.find? fun p => p.path == path

/-- Whether the objects are the cells of a list. -/
def isList (o : ObjectType) : Bool := o.listItemType.isSome

end ObjectType

/-- An intersection or union of object types.  It has no members until it is filled. -/
structure ObjectComposite where
  name : Name
  exported : Bool
  preference : DeclarationPreference
  members : List ObjectId := []
  deriving DecidableEq, Repr, Inhabited

/-- Fill a composite with its members, of which there must be two or more. -/
def ObjectComposite.fill (c : ObjectComposite) (members : List ObjectId) :
    Except ModelError ObjectComposite :=
  if members.length < 2 then .error (.tooFewObjects members.length) else .ok { c with members }

theorem ObjectComposite.fill_eq_ok {c d : ObjectComposite} {members : List ObjectId} :
    c.fill members = .ok d ↔ 2 ≤ members.length ∧ d = { c with members } := by
  unfold fill
  split
  · next h => simp only [reduceCtorEq, false_iff]; omega
  · next h =>
    simp only [Except.ok.injEq]
    constructor
    · rintro rfl
      exact ⟨by omega, rfl⟩
    · exact fun e => e.2.symm

/-! ## Models -/

/-- The types resolved so far. -/
structure TypeModel where
  objects : List ObjectType := []
  intersections : List ObjectComposite := []
  unions : List ObjectComposite := []
  deriving Repr, Inhabited

/-- What a node shape stands for in a model. -/
inductive NodeType where
  | object (id : ObjectId)
  | composite (kind : CompositeKind) (id : CompositeId)
  deriving DecidableEq, Repr, Inhabited

/-- The lengths of the lists of a model. -/
structure Extent where
  objects : Nat
  intersections : Nat
  unions : Nat
  deriving DecidableEq, Repr, Inhabited

namespace Extent

/-- The length of the list of composites of a kind. -/
def composites (e : Extent) : CompositeKind → Nat
  | .intersection => e.intersections
  | .union => e.unions

/-- Whether an entry lies within the extent. -/
def holds (e : Extent) : NodeType → Bool
  | .object id => id.index < e.objects
  | .composite kind id => id.index < e.composites kind

end Extent

namespace TypeModel

/-- The model without types. -/
def empty : TypeModel := {}

/-- The composites of a kind. -/
def composites (m : TypeModel) : CompositeKind → List ObjectComposite
  | .intersection => m.intersections
  | .union => m.unions

/-! ### Looking up entries -/

/-- The object type with a number. -/
def object? (m : TypeModel) (id : ObjectId) : Option ObjectType := m.objects[id.index]?

/-- The composite with a number. -/
def composite? (m : TypeModel) (kind : CompositeKind) (id : CompositeId) :
    Option ObjectComposite :=
  (m.composites kind)[id.index]?

/-- The numbers of all object types, in order. -/
def objectIds (m : TypeModel) : List ObjectId := (List.range m.objects.length).map ObjectId.mk

/-- The first object type that is emitted under a name. -/
def objectNamed? (m : TypeModel) (name : String) : Option ObjectId :=
  (m.objects.findIdx? fun o => o.name.sanitized == name).map ObjectId.mk

/-! ### Adding entries -/

/-- Add an object type at the end. -/
def addObject (m : TypeModel) (o : ObjectType) : TypeModel :=
  { m with objects := m.objects ++ [o] }

/-- Add a composite at the end of the list of its kind. -/
def addComposite (m : TypeModel) (kind : CompositeKind) (c : ObjectComposite) : TypeModel :=
  match kind with
  | .intersection => { m with intersections := m.intersections ++ [c] }
  | .union => { m with unions := m.unions ++ [c] }

/-- The number that the next object type will have. -/
def nextObject (m : TypeModel) : ObjectId := ⟨m.objects.length⟩

/-- The number that the next composite of a kind will have. -/
def nextComposite (m : TypeModel) (kind : CompositeKind) : CompositeId :=
  ⟨(m.composites kind).length⟩

/-! ### Changing entries -/

/-- Change the object type with a number. -/
def modifyObject (m : TypeModel) (id : ObjectId) (f : ObjectType → ObjectType) : TypeModel :=
  { m with objects := m.objects.modify id.index f }

/-- Replace the composite with a number. -/
def setComposite (m : TypeModel) (kind : CompositeKind) (id : CompositeId) (c : ObjectComposite) :
    TypeModel :=
  match kind with
  | .intersection => { m with intersections := m.intersections.set id.index c }
  | .union => { m with unions := m.unions.set id.index c }

/-- Fill the composite with a number.  A number that is not in use changes nothing. -/
def fillComposite (m : TypeModel) (kind : CompositeKind) (id : CompositeId)
    (members : List ObjectId) : Except ModelError TypeModel :=
  match m.composite? kind id with
  | none => .ok m
  | some c => (c.fill members).map (m.setComposite kind id)

/-! ### Going back -/

/-- The present lengths. -/
def extent (m : TypeModel) : Extent :=
  ⟨m.objects.length, m.intersections.length, m.unions.length⟩

/-- Drop every entry beyond an extent. -/
def truncate (m : TypeModel) (e : Extent) : TypeModel :=
  { objects := m.objects.take e.objects
    intersections := m.intersections.take e.intersections
    unions := m.unions.take e.unions }

@[simp] theorem truncate_extent (m : TypeModel) : m.truncate m.extent = m := by
  simp [truncate, extent]

/-! ### Checking -/

/-- Every composite has two members or more; the first that has not is reported. -/
def validate (m : TypeModel) : Except ModelError Unit :=
  match (m.intersections ++ m.unions).find? fun c => c.members.length < 2 with
  | some c => .error (.tooFewObjects c.members.length)
  | none => .ok ()

theorem validate_eq_ok {m : TypeModel} :
    m.validate = .ok () ↔ ∀ c ∈ m.intersections ++ m.unions, 2 ≤ c.members.length := by
  unfold validate
  split
  · next c h =>
    simp only [reduceCtorEq, false_iff]
    intro all
    have small := List.find?_some h
    have := all c (List.mem_of_find?_eq_some h)
    simp only [decide_eq_true_eq] at small
    omega
  · next h =>
    have all := List.find?_eq_none.1 h
    simp only [decide_eq_true_eq, Nat.not_lt] at all
    exact ⟨fun _ => all, fun _ => rfl⟩

end TypeModel

end ShaclTypes
