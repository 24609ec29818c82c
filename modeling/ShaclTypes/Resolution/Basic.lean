import ShaclTypes.Resolution.Scope
import ShaclTypes.Resolution.Value
set_option autoImplicit false

/-!
# Resolving shapes

Node shapes and value types are resolved by one another.  A node shape that has
a place in the scope is known, and one that has none takes a place, which
leaves fewer to take.  An inline shape that is being typed is not typed again
inside itself, and typing one leaves fewer to type; node shapes met on the way
start with a fresh trail but cannot take a place that is taken.  So resolution
ends on every graph.

`resolveNodeShape` and `resolveProperty` are the ways in, and `resolveGraph`
resolves every declared node shape of a graph into a model.  `Resolution/Threaded.lean`
has the same without a scope, with all that is underway in the state.
-/

namespace ShaclTypes

open ShaclTypes.Rdf

namespace Resolver

variable (g : ShapesGraph) (settings : Settings)

/-- What shapes of the graph are named with. -/
def namer : Namer := ⟨g.prefixes, settings⟩

set_option linter.unusedVariables false in
mutual

/-- What a node shape stands for. -/
def nodeShape (scope : Scope) (shape : g.Member) : Resolver NodeType :=
  match unknown : scope.place? shape.1.identifier with
  | some place => do
    report (.known shape.1.identifier)
    return place
  | none =>
    once shape.1.identifier <|
      build (namer g settings) shape.1
        (fun place s => nodeShape (scope.enter shape.1.identifier place) s)
        (fun place inherited s =>
          valueType (scope.enter shape.1.identifier place) inherited s)
termination_by scope.nodeMeasure g
decreasing_by
  · exact Scope.nodeMeasure_enter_lt unknown place
  · exact Scope.typeMeasure_enter_lt unknown place

/-- The type of the values of a shape. -/
def valueType (scope : Scope) (inherited : Inherited) (shape : g.Member) : Resolver ValueType :=
  if fresh : shape.1.identifier ∈ scope.trail then throw (.selfReference shape.1.identifier)
  else
    typeWith inherited shape.1
      (fun s => nodeShape (scope.walk shape.1.identifier) s)
      (fun inherited s => valueType (scope.walk shape.1.identifier) inherited s)
termination_by scope.typeMeasure g
decreasing_by
  · rw [Scope.nodeMeasure_walk]
    exact Scope.nodeMeasure_lt_typeMeasure g scope
  · exact Scope.typeMeasure_walk_lt fresh

end

/-! ## Ways in -/

/-- Resolve a node shape. -/
def resolveNodeShape (shape : g.Member) : Resolver NodeType :=
  nodeShape g settings .outermost shape

/-- Resolve a property shape into a property. -/
def resolveProperty (shape : g.Member) : Resolver Property :=
  property (namer g settings) (valueType g settings .outermost) shape

/-- Check the model. -/
def checkModel : Resolver Unit := do
  ofExcept .model (← get).model.validate

/-- Resolve every declared node shape and check the model; the first that fails,
fails the whole. -/
def resolveAll : Resolver TypeModel := do
  g.nodeShapes.forM fun s => do let _ ← resolveNodeShape g settings s
  checkModel
  let model := (← get).model
  let extent := model.extent
  report (.finished extent.objects extent.intersections extent.unions)
  return model

end Resolver

/-- The model of a graph, or why there is none, and the state at the end. -/
def resolveGraph (g : ShapesGraph) (settings : Settings) :
    Except ResolutionError TypeModel × State :=
  (Resolver.resolveAll g settings).outcome .empty

end ShaclTypes
