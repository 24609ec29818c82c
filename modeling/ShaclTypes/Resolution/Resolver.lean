import ShaclTypes.Resolution.State
set_option autoImplicit false

/-!
# Resolvers

A resolver is a step of a resolution: it starts from a state, ends with a result
or a failure, and leaves a state behind in either case.  `Resolver.outcome` is
the view through which resolvers are compared; each way of making a resolver has
one equation about its outcome, and nothing else needs to look inside.
-/

namespace ShaclTypes

/-- A step of a resolution: it changes the state, whether it fails or not. -/
abbrev Resolver := ExceptT ResolutionError (StateM State)

namespace Resolver

/-! ## Making resolvers -/

/-- Report an event. -/
def report (e : Event) : Resolver Unit := modify (·.log e)

/-- Take an answer, or fail for the reason that it gives. -/
def ofExcept {ε α : Type} (wrap : ε → ResolutionError) : Except ε α → Resolver α
  | .ok a => pure a
  | .error e => throw (wrap e)

/-- The end of a step, as a value: a step that fails does not fail the steps
around it. -/
def attempt {α : Type} (step : Resolver α) : Resolver (Except ResolutionError α) :=
  tryCatch (Except.ok <$> step) fun e => pure (.error e)

/-- A step that, if it fails, leaves behind nothing in the model. -/
def transaction {α : Type} (step : Resolver α) : Resolver α := do
  let before := (← get).model.extent
  tryCatch step fun e => do
    modify (·.rollback before)
    throw e

/-! ## Outcomes -/

/-- How a step ends from a state: with a result or a failure, and in which state. -/
def outcome {α : Type} (step : Resolver α) (s : State) : Except ResolutionError α × State :=
  (ExceptT.run step).run s

@[simp] theorem outcome_pure {α : Type} (a : α) (s : State) : outcome (pure a) s = (.ok a, s) :=
  rfl

@[simp] theorem outcome_throw {α : Type} (e : ResolutionError) (s : State) :
    outcome (throw e : Resolver α) s = (.error e, s) := rfl

@[simp] theorem outcome_get (s : State) : outcome get s = (.ok s, s) := rfl

@[simp] theorem outcome_modify (f : State → State) (s : State) :
    outcome (modify f) s = (.ok (), f s) := rfl

@[simp] theorem outcome_report (e : Event) (s : State) :
    outcome (report e) s = (.ok (), s.log e) := rfl

@[simp] theorem outcome_ofExcept {ε α : Type} (wrap : ε → ResolutionError) (answer : Except ε α)
    (s : State) : outcome (ofExcept wrap answer) s = (answer.mapError wrap, s) := by
  cases answer <;> rfl

/-- What follows a step runs in the state that it leaves, unless the step fails. -/
theorem outcome_bind {α β : Type} (step : Resolver α) (next : α → Resolver β) (s : State) :
    outcome (step >>= next) s =
      match outcome step s with
      | (.ok a, t) => outcome (next a) t
      | (.error e, t) => (.error e, t) := by
  simp only [outcome, bind, ExceptT.run, ExceptT.bind, ExceptT.mk, StateT.run, StateT.bind]
  cases step s with
  | mk result t => cases result <;> rfl

theorem outcome_get_bind {α : Type} (next : State → Resolver α) (s : State) :
    outcome (get >>= next) s = outcome (next s) s := rfl

theorem outcome_modify_bind {α : Type} (f : State → State) (next : Unit → Resolver α)
    (s : State) : outcome (modify f >>= next) s = outcome (next ()) (f s) := rfl

theorem outcome_map {α β : Type} (f : α → β) (step : Resolver α) (s : State) :
    outcome (f <$> step) s = ((outcome step s).1.map f, (outcome step s).2) := by
  rw [map_eq_pure_bind, outcome_bind]
  cases outcome step s with
  | mk result t => cases result <;> rfl

/-- A failure is handled in the state that the failed step leaves. -/
theorem outcome_tryCatch {α : Type} (step : Resolver α) (handle : ResolutionError → Resolver α)
    (s : State) :
    outcome (tryCatch step handle) s =
      match outcome step s with
      | (.ok a, t) => (.ok a, t)
      | (.error e, t) => outcome (handle e) t := by
  simp only [outcome, tryCatch, tryCatchThe, MonadExceptOf.tryCatch, ExceptT.tryCatch, bind,
    ExceptT.run, ExceptT.mk, StateT.run, StateT.bind]
  cases step s with
  | mk result t => cases result <;> rfl

/-- An attempt ends well, with the end of the step as its result. -/
theorem outcome_attempt {α : Type} (step : Resolver α) (s : State) :
    outcome (attempt step) s = (.ok (outcome step s).1, (outcome step s).2) := by
  unfold attempt
  rw [outcome_tryCatch, outcome_map]
  cases outcome step s with
  | mk result t => cases result <;> rfl

/-- A transaction ends like the step, but takes back a failed step's entries. -/
theorem outcome_transaction {α : Type} (step : Resolver α) (s : State) :
    outcome (transaction step) s =
      match outcome step s with
      | (.ok a, t) => (.ok a, t)
      | (.error e, t) => (.error e, t.rollback s.model.extent) := by
  unfold transaction
  rw [outcome_bind, outcome_get]
  simp only [outcome_tryCatch]
  cases outcome step s with
  | mk result t =>
    cases result with
    | ok a => rfl
    | error e => simp only [outcome_bind, outcome_modify, outcome_throw]

end Resolver

end ShaclTypes
