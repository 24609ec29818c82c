import ShaclTypes.Rdf.Collection
import ShaclTypes.Rdf.Lexical
import ShaclTypes.Shape.Basic
set_option autoImplicit false

/-!
# Values of a shape's statements

Each reader takes the subject and the predicate of the statements to read, and
puts the blame for a value of the wrong form on exactly that subject, predicate
and value (`ShapeError.invalidValue`).  A reader of a single value looks at the
first object only.
-/

namespace ShaclTypes.Values

open ShaclTypes.Rdf ShaclTypes.Vocabulary

/-- What a reader answers. -/
abbrev Read (α : Type) := Except ShapeError α

/-! ## One value -/

/-- `some` result, or the blame for a value of the wrong form. -/
def demand {α : Type} (shape : Term) (predicate : Iri) (value : Term) : Option α → Read α
  | some a => .ok a
  | none => .error (.invalidValue shape predicate value)

theorem demand_eq_error {α : Type} {shape : Term} {predicate : Iri} {value : Term}
    {result : Option α} {e : ShapeError} (h : demand shape predicate value result = .error e) :
    e = .invalidValue shape predicate value ∧ result = none := by
  cases result with
  | none => exact ⟨(Except.error.inj h).symm, rfl⟩
  | some a => cases h

/-- The value as an IRI. -/
def iri (shape : Term) (predicate : Iri) (value : Term) : Read Iri :=
  demand shape predicate value value.iri?

/-- The value as a literal. -/
def literal (shape : Term) (predicate : Iri) (value : Term) : Read Literal :=
  demand shape predicate value value.literal?

/-- The value as a truth value. -/
def bool (shape : Term) (predicate : Iri) (value : Term) : Read Bool :=
  demand shape predicate value (value.literal?.bind Literal.bool?)

/-- The value as a count. -/
def count (shape : Term) (predicate : Iri) (value : Term) : Read Nat :=
  demand shape predicate value (value.literal?.bind Literal.count?)

/-- The value as the text of a literal. -/
def text (shape : Term) (predicate : Iri) (value : Term) : Read String :=
  demand shape predicate value (value.literal?.map Literal.lexical)

/-- The value as one of a closed list of IRIs that have a meaning. -/
def choice {α : Type} (table : List (Iri × α)) (shape : Term) (predicate : Iri) (value : Term) :
    Read α :=
  demand shape predicate value (value.iri?.bind fun i => table.lookup i)

/-! ## The values of a predicate -/

/-- A reader of one value. -/
abbrev Reader (α : Type) := Term → Iri → Term → Read α

/-- The first value, if there is one. -/
def first? {α : Type} (read : Reader α) (s : TripleStore) (shape : Term) (predicate : Iri) :
    Read (Option α) :=
  match s.object? shape predicate with
  | none => .ok none
  | some value => (read shape predicate value).map some

/-- Every value. -/
def all {α : Type} (read : Reader α) (s : TripleStore) (shape : Term) (predicate : Iri) :
    Read (List α) :=
  (s.objects shape predicate).mapM (read shape predicate)

/-- The items of the collection at `head`. -/
def items (s : TripleStore) (head : Term) : Read (List Term) :=
  match s.collection? head with
  | some items => .ok items
  | none => .error (.malformedList head)

/-- The items of every collection that is a value, one collection after the other. -/
def members (s : TripleStore) (shape : Term) (predicate : Iri) : Read (List Term) := do
  return (← (s.objects shape predicate).mapM (items s)).flatten

/-- The items of every collection that is a value, each read in its turn. -/
def membersOf {α : Type} (read : Reader α) (s : TripleStore) (shape : Term) (predicate : Iri) :
    Read (List α) := do
  let lists ← (s.objects shape predicate).mapM fun head => do
    (← items s head).mapM (read shape predicate)
  return lists.flatten

end ShaclTypes.Values
