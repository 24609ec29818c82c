import ShaclTypes.Model.Basic
import ShaclTypes.Resolution.Event
set_option autoImplicit false

/-!
# The state of a resolution

A resolution builds a model.  Its state is the model, the node shapes that are
resolved, and the events so far.  A failure drops every entry that was added
since it began, together with the node shapes that stand for them
(`State.rollback`); the events stay.
-/

namespace ShaclTypes

open ShaclTypes.Rdf

/-- The state of a resolution. -/
structure State where
  model : TypeModel := {}
  /-- the node shapes that are resolved, the latest first -/
  resolved : List (Term × NodeType) := []
  /-- the events so far, in order -/
  events : Array Event := #[]
  /-- the inline shapes that are being typed, for a resolution that keeps them here -/
  inProgress : List Term := []
  deriving Repr, Inhabited

namespace State

/-- The state before anything is resolved. -/
def empty : State := {}

/-- What a node shape has been resolved to. -/
def resolved? (s : State) (identifier : Term) : Option NodeType := s.resolved.lookup identifier

/-- Record what a node shape has been resolved to. -/
def record (s : State) (identifier : Term) (type : NodeType) : State :=
  { s with resolved := (identifier, type) :: s.resolved }

/-- Forget everything that lies beyond an extent of the model. -/
def rollback (s : State) (e : Extent) : State :=
  { s with
    model := s.model.truncate e
    resolved := s.resolved.filter fun p => e.holds p.2 }

/-- Add an event. -/
def log (s : State) (e : Event) : State := { s with events := s.events.push e }

@[simp] theorem log_model (s : State) (e : Event) : (s.log e).model = s.model := rfl

@[simp] theorem log_resolved (s : State) (e : Event) : (s.log e).resolved = s.resolved := rfl

@[simp] theorem rollback_events (s : State) (e : Extent) : (s.rollback e).events = s.events := rfl

end State

end ShaclTypes
