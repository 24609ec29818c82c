import ShaclTypes.Model.Basic
import ShaclTypes.Naming.Resolving
import ShaclTypes.Resolution.Resolver
set_option autoImplicit false

/-!
# New entries of the model

What a node shape contributes to the model before any other shape is looked at:
an object type without properties and relations, or a composite without members.
-/

namespace ShaclTypes

open ShaclTypes.Rdf

namespace Namer

/-- The class of the instances of a node shape: the annotated one, or else the
first target class, or else the shape itself if it is a class with an IRI. -/
def rdfType (s : Shape) : Option Iri :=
  s.annotations.rdfType <|> s.targetClasses.head? <|>
    (if s.isClass then s.identifier.iri? else none)

/-- The object type of a node shape, without properties and relations. -/
def objectType (n : Namer) (s : Shape) : ObjectType where
  name := n.name s
  comment := s.annotations.comment
  isAbstract := s.annotations.isAbstract.getD false
  exported := s.annotations.exported.getD n.settings.exported
  isExternal := s.annotations.isExternal.getD false
  kinds :=
    if s.annotations.identifierKinds.isEmpty then .identifiers else s.annotations.identifierKinds
  mintingStrategy := s.annotations.mintingStrategy
  rdfType := rdfType s
  identifierPropertyName :=
    s.annotations.identifierPropertyName.getD n.settings.identifierPropertyName
  typeDiscriminatorPropertyName :=
    s.annotations.typeDiscriminatorPropertyName.getD n.settings.typeDiscriminatorPropertyName

/-- The composite of a node shape, without members. -/
def objectComposite (n : Namer) (s : Shape) : ObjectComposite where
  name := n.name s
  exported := s.annotations.exported.getD n.settings.exported
  preference := s.annotations.declarationPreference.getD .cls

end Namer

namespace Resolver

/-- Add an object type to the model. -/
def addObject (o : ObjectType) : Resolver ObjectId := do
  let id := (← get).model.nextObject
  modify fun s => { s with model := s.model.addObject o }
  return id

/-- Add a composite to the model. -/
def addComposite (kind : CompositeKind) (c : ObjectComposite) : Resolver CompositeId := do
  let id := (← get).model.nextComposite kind
  modify fun s => { s with model := s.model.addComposite kind c }
  return id

/-- Change an object type of the model. -/
def modifyObject (id : ObjectId) (f : ObjectType → ObjectType) : Resolver Unit :=
  modify fun s => { s with model := s.model.modifyObject id f }

@[simp] theorem outcome_addObject (o : ObjectType) (s : State) :
    outcome (addObject o) s =
      (.ok s.model.nextObject, { s with model := s.model.addObject o }) := rfl

@[simp] theorem outcome_addComposite (kind : CompositeKind) (c : ObjectComposite) (s : State) :
    outcome (addComposite kind c) s =
      (.ok (s.model.nextComposite kind), { s with model := s.model.addComposite kind c }) := rfl

@[simp] theorem outcome_modifyObject (id : ObjectId) (f : ObjectType → ObjectType) (s : State) :
    outcome (modifyObject id f) s = (.ok (), { s with model := s.model.modifyObject id f }) := rfl

end Resolver

end ShaclTypes
