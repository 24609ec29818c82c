import ShaclTypes.Resolution.Cardinality
import ShaclTypes.Resolution.Collapse
import ShaclTypes.Resolution.Composition
import ShaclTypes.Resolution.Node
import ShaclTypes.Resolution.Scalar
set_option autoImplicit false

/-!
# Typing values

How the values of a shape are typed, given a way to resolve the node shapes and
to type the inline shapes that its composition lists.  Settings of a shape reach
its inline members (`Inherited.within`).  Nothing here is recursive.
-/

namespace ShaclTypes

open ShaclTypes.Rdf

/-- What the members of a shape inherit: its own settings, or else those around it. -/
def Inherited.within (inherited : Inherited) (s : Shape) : Inherited where
  defaultValue := s.constraints.defaultValue <|> inherited.defaultValue
  inline := s.annotations.inline <|> inherited.inline
  nested := true

namespace Resolver

variable {g : ShapesGraph}

/-- A reference to a node shape.  An external object type is nothing but an
identifier of its kinds. -/
def reference (context : Inherited) (type : NodeType) : Resolver ValueType :=
  match type with
  | .composite kind id => return .objectComposite kind id
  | .object id => do
    match ((← get).model.object? id).filter ObjectType.isExternal with
    | some o => return .identifier { kinds := o.kinds }
    | none => return .object id (context.inline.getD false)

/-- A step on behalf of a member; its failure is the failure of the composite. -/
def onBehalf {α : Type} (shape : Shape) (member : Term) (step : Resolver α) : Resolver α :=
  try step catch e => throw (.memberFailed shape.identifier member e)

/-- The shape of a member of a composite. -/
def requireMember (g : ShapesGraph) (member : Term) : Resolver g.Member :=
  match g.member? member with
  | some s => return s
  | none => throw (.unknownShape member)

/-- The type of a member of a conjunction or disjunction: node shapes and shapes
with properties are referred to, all others are typed in place. -/
def memberType (context : Inherited) (resolve : NodeResolver g) (typer : ValueTyper g)
    (member : Term) : Resolver ValueType := do
  let s ← requireMember g member
  if g.isDeclared member || !s.1.constraints.properties.isEmpty then
    reference context (← resolve s)
  else typer context s

/-- The type of a node that is referred to. -/
def nodeReference (context : Inherited) (resolve : NodeResolver g) (node : Term) :
    Resolver ValueType := do
  reference context (← resolve (← requireMember g node))

/-- The type of a class.  A class that is no node shape, or cannot be resolved,
has none and is reported. -/
def classType? (shape : Shape) (context : Inherited) (resolve : NodeResolver g) (cls : Iri) :
    Resolver (Option ValueType) :=
  match g.nodeShape? (.iri cls) with
  | none => do
    report (.classUnknown shape.identifier cls)
    return none
  | some s => do
    match ← attempt (resolve s) with
    | .ok type => return some (← reference context type)
    | .error e =>
      report (.classFailed shape.identifier cls e)
      return none

/-- The types of what a composition lists.  Of classes there has to be at least
one with a type; all other members must have one. -/
def memberTypes (shape : Shape) (context : Inherited) (resolve : NodeResolver g)
    (typer : ValueTyper g) : Composition → Resolver (List ValueType)
  | .conjunction members | .disjunction members =>
    members.mapM fun member => onBehalf shape member (memberType context resolve typer member)
  | .nodes nodes =>
    nodes.mapM fun node => onBehalf shape node (nodeReference context resolve node)
  | .classes classes => do
    let types := (← classes.mapM (classType? shape context resolve)).filterMap id
    if types.isEmpty then throw (.unresolvedClass shape.identifier classes)
    return types

/-- The type of one value of a shape: by its composition, or else by the scalar rules. -/
def itemType (shape : Shape) (context : Inherited) (resolve : NodeResolver g)
    (typer : ValueTyper g) : Resolver ValueType :=
  match shape.constraints.composition? with
  | some composition => do
    let members ← memberTypes shape context resolve typer composition
    ofExcept .model
      (ValueType.collapse composition.kind (!shape.constraints.fixedValues.isEmpty) members)
  | none =>
    match scalarType? ⟨shape.constraints, context.defaultValue⟩ with
    | some type => return type
    | none => throw (.undetermined shape.identifier)

/-- The type of the values of a shape, with its cardinality. -/
def typeWith (inherited : Inherited) (shape : Shape) (resolve : NodeResolver g)
    (typer : ValueTyper g) : Resolver ValueType := do
  let context := inherited.within shape
  let item ← itemType shape context resolve typer
  return Cardinality.wrap
    { minCount := shape.constraints.minCount
      maxCount := shape.constraints.maxCount
      hasDefault := context.defaultValue.isSome
      nested := inherited.nested } item

end Resolver

end ShaclTypes
