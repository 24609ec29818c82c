import ShaclTypes.Resolution.Basic
set_option autoImplicit false

/-!
# Resolving with everything in the state

Resolution as a program with mutable fields has it.  No scope is handed down: a node
shape is recorded as soon as its entry is made, before the entry is filled, so that
whatever leads back to it finds it there, and the inline shapes that are being typed are
a field of the state, put aside while a node shape is built and put back at its end.

Nothing bounds these calls but what they find in the state.  So here they run to a given
depth, and what happens beyond is left open (`Alarm`).
-/

namespace ShaclTypes

open ShaclTypes.Rdf

namespace Resolver

/-- What happens on an alarm. -/
structure Alarm where
  node : Resolver NodeType
  type : Resolver ValueType

/-! ## Inline shapes in progress -/

/-- Run a step with no inline shape in progress.  Those that are, are put aside. -/
def aside {α : Type} (step : Resolver α) : Resolver α := do
  let outer := (← get).inProgress
  modify fun s => { s with inProgress := [] }
  let answer ← attempt step
  modify fun s => { s with inProgress := outer }
  ofExcept id answer

/-- Run a step while an inline shape is in progress.  It must not be so already. -/
def whileTyping {α : Type} (identifier : Term) (step : Resolver α) : Resolver α := do
  if identifier ∈ (← get).inProgress then throw (.selfReference identifier)
  modify fun s => { s with inProgress := identifier :: s.inProgress }
  let answer ← attempt step
  modify fun s => { s with inProgress := s.inProgress.erase identifier }
  ofExcept id answer

/-- A step aside ends like the step, with the inline shapes in progress as before. -/
theorem outcome_aside {α : Type} (step : Resolver α) (s : State) :
    outcome (aside step) s =
      ((outcome step { s with inProgress := [] }).1,
        { (outcome step { s with inProgress := [] }).2 with inProgress := s.inProgress }) := by
  unfold aside
  rw [outcome_get_bind, outcome_modify_bind, outcome_bind, outcome_attempt]
  dsimp only
  rw [outcome_modify_bind, outcome_ofExcept]
  cases (outcome step { s with inProgress := [] }).1 <;> rfl

/-- A shape that is in progress is a self reference. -/
theorem outcome_whileTyping_of_mem {α : Type} {identifier : Term} (step : Resolver α) {s : State}
    (h : identifier ∈ s.inProgress) :
    outcome (whileTyping identifier step) s = (.error (.selfReference identifier), s) := by
  unfold whileTyping
  rw [outcome_get_bind, if_pos h]
  rfl

/-- The step ends as it does with the shape in progress, and the shape is so no more. -/
theorem outcome_whileTyping {α : Type} {identifier : Term} (step : Resolver α) {s : State}
    (h : identifier ∉ s.inProgress) :
    let run := outcome step { s with inProgress := identifier :: s.inProgress }
    outcome (whileTyping identifier step) s =
      (run.1, { run.2 with inProgress := run.2.inProgress.erase identifier }) := by
  intro run
  unfold whileTyping
  rw [outcome_get_bind, if_neg h, outcome_modify_bind, outcome_bind, outcome_attempt]
  dsimp only
  rw [outcome_modify_bind, outcome_ofExcept]
  cases (outcome step { s with inProgress := identifier :: s.inProgress }).1 <;> rfl

/-! ## Shapes -/

variable {g : ShapesGraph}

/-- Build a node shape, which is recorded as soon as it has an entry. -/
def buildRecorded (n : Namer) (shape : Shape) (resolve : NodeResolver g) (typer : ValueTyper g) :
    Resolver NodeType :=
  match shape.constraints.nodeComposition? with
  | some (kind, members) => do
    if members.length < 2 then throw (.tooFewDeclared shape.identifier members.length)
    let id ← addComposite kind (n.objectComposite shape)
    modify (·.record shape.identifier (.composite kind id))
    fillComposite shape kind id members resolve
    return .composite kind id
  | none => do
    let id ← addObject (n.objectType shape)
    modify (·.record shape.identifier (.object id))
    fillObject n shape id resolve typer
    return .object id

variable (g) (settings : Settings) (alarm : Alarm)

mutual

/-- What a node shape stands for. -/
def threadNode : Nat → g.Member → Resolver NodeType
  | 0, _ => alarm.node
  | depth + 1, shape => do
    match (← get).resolved? shape.1.identifier with
    | some type =>
      report (.known shape.1.identifier)
      return type
    | none =>
      report (.resolving shape.1.identifier)
      transaction <| aside <|
        buildRecorded (namer g settings) shape.1 (threadNode depth) (threadType depth)

/-- The type of the values of a shape. -/
def threadType : Nat → Inherited → g.Member → Resolver ValueType
  | 0, _, _ => alarm.type
  | depth + 1, inherited, shape =>
    whileTyping shape.1.identifier <|
      typeWith inherited shape.1 (threadNode depth) (threadType depth)

end

/-- Resolve a property shape into a property. -/
def threadProperty (depth : Nat) (shape : g.Member) : Resolver Property :=
  property (namer g settings) (threadType g settings alarm depth) shape

variable {g}

/-- Resolve every declared node shape in a given way, and check the model. -/
def resolveAllBy (resolve : NodeResolver g) : Resolver TypeModel := do
  g.nodeShapes.forM fun s => do let _ ← resolve s
  checkModel
  let model := (← get).model
  let extent := model.extent
  report (.finished extent.objects extent.intersections extent.unions)
  return model

end Resolver

end ShaclTypes
