import ShaclTypes.Resolution.Composition
import ShaclTypes.Resolution.Entry
import ShaclTypes.Resolution.ListItem
import ShaclTypes.Shape.Graph
set_option autoImplicit false

/-!
# Building node shapes

How a node shape is built, given a way to resolve the node shapes and to type
the inline shapes that it leads to.  A place in the model is taken first, so
that whatever leads back to the shape finds it there; then the place is filled.

The ways are handed in as functions of the place, and nothing here is recursive.
-/

namespace ShaclTypes

open ShaclTypes.Rdf

/-- The object type that a node shape stands for. -/
def NodeType.object? : NodeType → Option ObjectId
  | object id => some id
  | composite _ _ => none

/-- What a shape inherits from the composites around it. -/
structure Inherited where
  /-- the default value in force -/
  defaultValue : Option Term := none
  /-- whether references are embedded -/
  inline : Option Bool := none
  /-- whether the shape is a member of a composite -/
  nested : Bool := false
  deriving DecidableEq, Repr, Inhabited

namespace Resolver

variable {g : ShapesGraph}

/-- A way to resolve node shapes. -/
abbrev NodeResolver (g : ShapesGraph) := g.Member → Resolver NodeType

/-- A way to type inline shapes. -/
abbrev ValueTyper (g : ShapesGraph) := Inherited → g.Member → Resolver ValueType

/-! ## Composites of object types -/

/-- One more member of a composite.  A member that is not an object type, or
cannot be resolved, is left out and reported. -/
def addMember (shape : Shape) (resolve : NodeResolver g) (met : List ObjectId) (member : Term) :
    Resolver (List ObjectId) :=
  match g.member? member with
  | none => do
    report (.memberUnknown shape.identifier member)
    return met
  | some s => do
    match ← attempt (resolve s) with
    | .ok (.object id) => return addNew met id
    | .ok (.composite _ _) =>
      report (.memberSkipped shape.identifier member)
      return met
    | .error e =>
      report (.memberFailed shape.identifier member e)
      return met

/-- Fill a composite with those of its members that are object types, each once. -/
def fillComposite (shape : Shape) (kind : CompositeKind) (id : CompositeId)
    (members : List Term) (resolve : NodeResolver g) : Resolver Unit := do
  let ids ← members.foldlM (addMember shape resolve) []
  let model ← ofExcept (.tooFewResolved shape.identifier) ((← get).model.fillComposite kind id ids)
  modify fun s => { s with model }

/-! ## Object types -/

/-- The object types among the node shapes that are related to a shape. -/
def resolveRelatives (shape : Shape) (kinship : Kinship) (resolve : NodeResolver g) :
    Resolver (List ObjectId) := do
  return (← (g.relatives kinship shape).mapM resolve).filterMap NodeType.object?

/-- Relate an object type to those of its shape's relatives. -/
def linkRelatives (shape : Shape) (id : ObjectId) (resolve : NodeResolver g) : Resolver Unit := do
  let ancestors ← resolveRelatives shape .ancestor resolve
  let descendants ← resolveRelatives shape .descendant resolve
  let parents ← resolveRelatives shape .parent resolve
  let children ← resolveRelatives shape .child resolve
  modifyObject id fun o => { o with ancestors, descendants, parents, children }

/-- The property of a property shape, whose path has to be a predicate. -/
def property (n : Namer) (typer : ValueTyper g) (s : g.Member) : Resolver Property :=
  match s.1.path with
  | none => throw (.missingPath s.1.identifier)
  | some path =>
    match path.predicate? with
    | none => throw (.unsupportedPath s.1.identifier path.kindName)
    | some predicate => do
      let type ← typer {} s
      return {
        name := n.name s.1
        path := predicate
        type
        visibility := s.1.annotations.visibility.getD .pub }

/-- Add a property to an object type.  One that cannot be resolved is left out
and reported. -/
def addProperty (n : Namer) (shape : Shape) (id : ObjectId) (typer : ValueTyper g)
    (s : g.Member) : Resolver Unit := do
  match ← attempt (property n typer s) with
  | .ok p => modifyObject id fun o => { o with properties := o.properties ++ [p] }
  | .error e => report (.propertyDropped shape.identifier s.1.identifier e)

/-- The type of the items of an object type, if it is a list cell and its class
is a kind of list. -/
def itemType? (g : ShapesGraph) (shape : Shape) (id : ObjectId) (model : TypeModel) :
    Option ValueType :=
  if g.isSubclassOf shape (.iri Vocabulary.rdf.list) then
    (model.object? id).bind (ObjectType.itemTypeAs? · id)
  else none

/-- Recognise an object type that is a list cell. -/
def detectList (g : ShapesGraph) (shape : Shape) (id : ObjectId) : Resolver Unit := do
  match itemType? g shape id (← get).model with
  | none => return
  | some item =>
    report (.listDetected shape.identifier)
    modifyObject id fun o => { o with listItemType := some item }

/-- Fill an object type: its relatives, then its properties, then its list items. -/
def fillObject (n : Namer) (shape : Shape) (id : ObjectId) (resolve : NodeResolver g)
    (typer : ValueTyper g) : Resolver Unit := do
  linkRelatives shape id resolve
  let properties ← ofExcept .shapes (g.propertyShapes shape)
  properties.forM (addProperty n shape id typer)
  detectList g shape id

/-! ## Node shapes -/

/-- Build a node shape: take a place for it and fill it. -/
def build (n : Namer) (shape : Shape) (resolve : NodeType → NodeResolver g)
    (typer : NodeType → ValueTyper g) : Resolver NodeType :=
  match shape.constraints.nodeComposition? with
  | some (kind, members) => do
    if members.length < 2 then throw (.tooFewDeclared shape.identifier members.length)
    let id ← addComposite kind (n.objectComposite shape)
    fillComposite shape kind id members (resolve (.composite kind id))
    return .composite kind id
  | none => do
    let id ← addObject (n.objectType shape)
    fillObject n shape id (resolve (.object id)) (typer (.object id))
    return .object id

/-- Resolve a node shape that has no place yet: it is built unless it has been
resolved before, and if that fails no trace of it is left in the model. -/
def once (identifier : Term) (step : Resolver NodeType) : Resolver NodeType := do
  match (← get).resolved? identifier with
  | some type =>
    report (.known identifier)
    return type
  | none =>
    report (.resolving identifier)
    let type ← transaction step
    modify (·.record identifier type)
    return type

end Resolver

end ShaclTypes
