import ShaclTypes.Shape.PathReading
set_option autoImplicit false

/-!
# Reading shapes from a store

What a shape demands and how it steers the generator, read off the statements
about it.  The first fault in the order of the fields is the one reported: the
path, then the target classes, the constraints and the annotations.
-/

namespace ShaclTypes

open ShaclTypes.Rdf ShaclTypes.Vocabulary ShaclTypes.Values

/-! ## Node kinds -/

/-- What each value of `sh:nodeKind` stands for. -/
def NodeKinds.table : List (Iri × NodeKinds) :=
  [(sh.blankNode, { blankNode := true }), (sh.iri, { iri := true }),
   (sh.literal, { literal := true }), (sh.blankNodeOrIri, { blankNode := true, iri := true }),
   (sh.blankNodeOrLiteral, { blankNode := true, literal := true }),
   (sh.iriOrLiteral, { iri := true, literal := true })]

/-- A set of node kinds.  A value that is none is blamed on `sh:nodeKind`,
whichever predicate led to it. -/
def Values.nodeKinds : Reader NodeKinds := fun shape _ value =>
  choice NodeKinds.table shape sh.nodeKind value

/-- A set of node kinds for identifiers, so without literals. -/
def Values.identifierKinds : Reader NodeKinds := fun shape predicate value => do
  let kinds ← nodeKinds shape predicate value
  if kinds.literal then throw (.invalidValue shape predicate value) else return kinds

/-! ## Annotations with a closed list of values -/

/-- The minting strategies. -/
def MintingStrategy.table : List (Iri × MintingStrategy) :=
  [(gen.sha256, sha256), (gen.uuidv4, uuidv4)]

/-- The visibilities. -/
def Visibility.table : List (Iri × Visibility) :=
  [(gen.privateVisibility, priv), (gen.protectedVisibility, prot), (gen.publicVisibility, pub)]

/-- The declaration preferences. -/
def DeclarationPreference.table : List (Iri × DeclarationPreference) :=
  [(gen.preferClass, cls), (gen.preferInterface, interface)]

/-! ## Shapes -/

/-- The bounds of a shape. -/
def Bounds.ofStore (s : TripleStore) (shape : Term) : Read Bounds := do
  return {
    minInclusive := ← first? literal s shape sh.minInclusive
    minExclusive := ← first? literal s shape sh.minExclusive
    maxInclusive := ← first? literal s shape sh.maxInclusive
    maxExclusive := ← first? literal s shape sh.maxExclusive }

/-- The constraints of a shape. -/
def Constraints.ofStore (s : TripleStore) (shape : Term) : Read Constraints := do
  return {
    allOf := ← members s shape sh.conjunction
    anyOf := (← members s shape sh.disjunction) ++ (← members s shape sh.exclusiveDisjunction)
    enumeration := ← members s shape sh.enumeration
    languages := ← membersOf text s shape sh.languageIn
    classes := ← all iri s shape sh.cls
    nodes := s.objects shape sh.node
    properties := s.objects shape sh.property
    fixedValues := s.objects shape sh.hasValue
    defaultValue := s.object? shape sh.defaultValue
    datatype := ← first? iri s shape sh.datatype
    minCount := ← first? count s shape sh.minCount
    maxCount := ← first? count s shape sh.maxCount
    bounds := ← Bounds.ofStore s shape
    nodeKinds := .unions (← all Values.nodeKinds s shape sh.nodeKind) }

/-- The label of a shape: `sh:name`, or `rdfs:label` if there is none. -/
def Annotations.labelOfStore (s : TripleStore) (shape : Term) : Read (Option String) := do
  match ← first? text s shape sh.name with
  | some label => return some label
  | none => first? text s shape rdfs.label

/-- The annotations of a shape. -/
def Annotations.ofStore (s : TripleStore) (shape : Term) : Read Annotations := do
  return {
    name := ← first? text s shape gen.name
    label := ← labelOfStore s shape
    comment := ← first? text s shape rdfs.comment
    isAbstract := ← first? bool s shape gen.isAbstract
    exported := ← first? bool s shape gen.exported
    isExternal := ← first? bool s shape gen.isExternal
    inline := ← first? bool s shape gen.inline
    identifierPropertyName := ← first? text s shape gen.identifierPropertyName
    typeDiscriminatorPropertyName := ← first? text s shape gen.typeDiscriminatorPropertyName
    mintingStrategy :=
      ← first? (choice MintingStrategy.table) s shape gen.identifierMintingStrategy
    visibility := ← first? (choice Visibility.table) s shape gen.visibility
    declarationPreference :=
      ← first? (choice DeclarationPreference.table) s shape gen.declarationPreference
    identifierKinds := .unions (← all Values.identifierKinds s shape gen.nodeKind)
    rdfType := ← first? iri s shape gen.rdfType }

/-- Whether a term is declared to be a class. -/
def Shape.isClassIn (s : TripleStore) (shape : Term) : Bool :=
  (s.objects shape rdf.type).any fun t => t.isIri rdfs.cls || t.isIri owl.cls

/-- The path of a shape, if it has one. -/
def Shape.pathOfStore (s : TripleStore) (shape : Term) : Read (Option Path) :=
  match s.object? shape sh.path with
  | none => .ok none
  | some node => (Path.ofNode s [] node).map some

/-- The shape that a term stands for. -/
def Shape.ofStore (s : TripleStore) (shape : Term) : Read Shape := do
  let path ← pathOfStore s shape
  let targetClasses ← all iri s shape sh.targetClass
  return {
    identifier := shape
    path
    constraints := ← Constraints.ofStore s shape
    annotations := ← Annotations.ofStore s shape
    targetClasses
    isClass := isClassIn s shape }

end ShaclTypes
