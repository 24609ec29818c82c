import ShaclTypes.Shape.NodeKinds
import ShaclTypes.Shape.Path
set_option autoImplicit false

/-!
# Shapes

A shape names itself, may have a path, and carries constraints on values and
annotations for the generator.  With a path it is a property shape, without one
a node shape.
-/

namespace ShaclTypes

open ShaclTypes.Rdf

/-- How identifiers are minted for instances that lack one. -/
inductive MintingStrategy where
  | sha256
  | uuidv4
  deriving DecidableEq, Repr, Inhabited

/-- The visibility of a generated property; public unless said otherwise. -/
inductive Visibility where
  | priv
  | prot
  | pub
  deriving DecidableEq, Repr

instance : Inhabited Visibility := ⟨.pub⟩

/-- Whether a composite is better declared like a class or like an interface;
like a class unless said otherwise. -/
inductive DeclarationPreference where
  | cls
  | interface
  deriving DecidableEq, Repr

instance : Inhabited DeclarationPreference := ⟨.cls⟩

/-- The name of the strategy. -/
def MintingStrategy.name : MintingStrategy → String
  | sha256 => "Sha256"
  | uuidv4 => "Uuidv4"

/-- The name of the visibility. -/
def Visibility.name : Visibility → String
  | priv => "Private"
  | prot => "Protected"
  | pub => "Public"

/-- The name of the preference. -/
def DeclarationPreference.name : DeclarationPreference → String
  | cls => "Class"
  | interface => "Interface"

/-- Bounds on the order of a literal. -/
structure Bounds where
  minInclusive : Option Literal := none
  minExclusive : Option Literal := none
  maxInclusive : Option Literal := none
  maxExclusive : Option Literal := none
  deriving DecidableEq, Repr, Inhabited

/-- Whether there is any bound. -/
def Bounds.any (b : Bounds) : Bool :=
  b.minInclusive.isSome || b.minExclusive.isSome || b.maxInclusive.isSome || b.maxExclusive.isSome

/-- What a shape demands of its values. -/
structure Constraints where
  /-- the members of `sh:and` -/
  allOf : List Term := []
  /-- the members of `sh:or`, then those of `sh:xone` -/
  anyOf : List Term := []
  /-- the values of `sh:class` -/
  classes : List Iri := []
  /-- the values of `sh:node` -/
  nodes : List Term := []
  datatype : Option Iri := none
  /-- the values of `sh:hasValue` -/
  fixedValues : List Term := []
  /-- the members of `sh:in` -/
  enumeration : List Term := []
  defaultValue : Option Term := none
  /-- the members of `sh:languageIn` -/
  languages : List String := []
  minCount : Option Nat := none
  maxCount : Option Nat := none
  bounds : Bounds := {}
  nodeKinds : NodeKinds := {}
  /-- the values of `sh:property` -/
  properties : List Term := []
  deriving DecidableEq, Repr, Inhabited

/-- How a shape steers the generation of its type. -/
structure Annotations where
  /-- the name that replaces every other -/
  name : Option String := none
  /-- `sh:name`, or else `rdfs:label` -/
  label : Option String := none
  comment : Option String := none
  isAbstract : Option Bool := none
  exported : Option Bool := none
  isExternal : Option Bool := none
  inline : Option Bool := none
  mintingStrategy : Option MintingStrategy := none
  /-- the preferred kinds of identifiers -/
  identifierKinds : NodeKinds := {}
  identifierPropertyName : Option String := none
  typeDiscriminatorPropertyName : Option String := none
  visibility : Option Visibility := none
  declarationPreference : Option DeclarationPreference := none
  rdfType : Option Iri := none
  deriving DecidableEq, Repr, Inhabited

/-- A shape.  It is a property shape if it has a path, and a node shape if not. -/
structure Shape where
  identifier : Term
  path : Option Path := none
  constraints : Constraints := {}
  annotations : Annotations := {}
  /-- the values of `sh:targetClass` -/
  targetClasses : List Iri := []
  /-- whether the shape is itself declared to be a class -/
  isClass : Bool := false
  deriving Repr, Inhabited

/-- Whether the shape has no path. -/
def Shape.isNodeShape (s : Shape) : Bool := s.path.isNone

/-- Whether the shape has a path. -/
def Shape.isPropertyShape (s : Shape) : Bool := s.path.isSome

/-- Why shapes cannot be read or found. -/
inductive ShapeError where
  /-- the chain of cells that starts here is no collection -/
  | malformedList (head : Term)
  /-- the node is no path -/
  | malformedPath (node : Term)
  /-- the value is not of the form that the predicate demands -/
  | invalidValue (shape : Term) (predicate : Iri) (value : Term)
  /-- no shape has this identifier -/
  | unknownShape (identifier : Term)
  deriving DecidableEq, Repr

end ShaclTypes
