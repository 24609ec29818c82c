import ShaclTypes.Distinct
import ShaclTypes.Shape.Basic
set_option autoImplicit false

/-!
# Value types

The type of a property's values: a literal or an identifier with restrictions,
an intersection or a union of types, a set or an option of a type, or a
reference to a type that is declared in its own right.  Object types refer to
one another by number, so that types can be recursive.

An intersection or union has at least two members; `ValueType.composite?` is
the way to build one.  The object types that a type refers to are collected in
order and each once (`references`), from all occurrences (`occurrences`).
-/

namespace ShaclTypes

open ShaclTypes.Rdf

/-! ## References -/

/-- The number of an object type in its model. -/
structure ObjectId where
  index : Nat
  deriving DecidableEq, Repr, Inhabited

/-- The number of an object composite among those of its kind. -/
structure CompositeId where
  index : Nat
  deriving DecidableEq, Repr, Inhabited

/-- The two ways of putting types together. -/
inductive CompositeKind where
  | intersection
  | union
  deriving DecidableEq, Repr, Inhabited

/-! ## Types -/

/-- A literal with its restrictions. -/
structure LiteralType where
  datatype : Option Iri := none
  defaultValue : Option Literal := none
  fixedValues : List Literal := []
  enumeration : List Literal := []
  languages : List String := []
  bounds : Bounds := {}
  deriving DecidableEq, Repr, Inhabited

/-- Whether the type has neither a datatype nor a bound. -/
def LiteralType.isGeneric (t : LiteralType) : Bool := t.datatype.isNone && !t.bounds.any

/-- An IRI or a blank node, with restrictions. -/
structure IdentifierType where
  kinds : NodeKinds := .identifiers
  defaultValue : Option Term := none
  fixedValues : List Term := []
  enumeration : List Term := []
  deriving DecidableEq, Repr, Inhabited

/-- The type of a value. -/
inductive ValueType where
  | literal (type : LiteralType)
  | identifier (type : IdentifierType)
  | composite (kind : CompositeKind) (members : List ValueType)
  | set (item : ValueType) (minCount : Nat)
  | option (item : ValueType)
  /-- an object type; `inline` says that values are embedded rather than referred to -/
  | object (id : ObjectId) (inline : Bool)
  | objectComposite (kind : CompositeKind) (id : CompositeId)
  deriving Repr, Inhabited

/-- Why a model cannot be built as asked. -/
inductive ModelError where
  /-- an intersection or union of value types with fewer than two members -/
  | tooFewMembers (count : Nat)
  /-- an intersection or union of object types with fewer than two members -/
  | tooFewObjects (count : Nat)
  deriving DecidableEq, Repr

/-- The wording of the error. -/
def ModelError.message : ModelError → String
  | tooFewMembers count =>
    "A composite type needs at least two members, got " ++ toString count
  | tooFewObjects count =>
    "A object composite type needs at least two members, got " ++ toString count

namespace ValueType

/-- An intersection or union of at least two types. -/
def composite? (kind : CompositeKind) (members : List ValueType) : Except ModelError ValueType :=
  if members.length < 2 then .error (.tooFewMembers members.length)
  else .ok (composite kind members)

theorem composite?_eq_ok {kind : CompositeKind} {members : List ValueType} {t : ValueType} :
    composite? kind members = .ok t ↔ 2 ≤ members.length ∧ t = composite kind members := by
  unfold composite?
  split
  · next h => simp only [reduceCtorEq, false_iff]; omega
  · next h =>
    simp only [Except.ok.injEq]
    constructor
    · rintro rfl
      exact ⟨by omega, rfl⟩
    · exact fun e => e.2.symm

/-- The name of the kind of type. -/
def kindName : ValueType → String
  | literal _ => "LiteralType"
  | identifier _ => "IdentifierType"
  | composite .intersection _ => "IntersectionType"
  | composite .union _ => "UnionType"
  | set _ _ => "SetType"
  | option _ => "OptionType"
  | object _ _ => "ObjectType"
  | objectComposite .intersection _ => "ObjectIntersectionType"
  | objectComposite .union _ => "ObjectUnionType"

/-- The type under any sets and options around it. -/
def withoutCardinality : ValueType → ValueType
  | set item _ | option item => item.withoutCardinality
  | t => t

/-- The object type that the type is a reference to. -/
def object? : ValueType → Option ObjectId
  | object id _ => some id
  | _ => none

/-- Whether the type is a literal with neither datatype nor bound. -/
def isGenericLiteral : ValueType → Bool
  | literal t => t.isGeneric
  | _ => false

@[simp] theorem withoutCardinality_set (item : ValueType) (n : Nat) :
    (set item n).withoutCardinality = item.withoutCardinality := rfl

@[simp] theorem withoutCardinality_option (item : ValueType) :
    (option item).withoutCardinality = item.withoutCardinality := rfl

/-! ## References to object types -/

mutual

/-- The references to object types in a type, from left to right, with repeats. -/
def occurrences : ValueType → List ObjectId
  | object id _ => [id]
  | composite _ members => occurrencesList members
  | set item _ | option item => item.occurrences
  | literal _ | identifier _ | objectComposite _ _ => []

/-- The references in a list of types. -/
def occurrencesList : List ValueType → List ObjectId
  | [] => []
  | t :: rest => t.occurrences ++ occurrencesList rest

end

mutual

/-- Add the object types that a type refers to to those met before. -/
def collect (met : List ObjectId) : ValueType → List ObjectId
  | object id _ => addNew met id
  | composite _ members => collectList met members
  | set item _ | option item => item.collect met
  | literal _ | identifier _ | objectComposite _ _ => met

/-- Add the object types that the members of a list refer to. -/
def collectList (met : List ObjectId) : List ValueType → List ObjectId
  | [] => met
  | t :: rest => collectList (t.collect met) rest

end

/-- The object types that a type refers to, each once, in order of appearance. -/
def references (t : ValueType) : List ObjectId := t.collect []

mutual

/-- Collecting adds the occurrences one by one, each at most once. -/
theorem collect_eq_addAll (met : List ObjectId) : (t : ValueType) →
    t.collect met = addAll met t.occurrences
  | object _ _ => rfl
  | composite _ members => by
    simp only [collect, occurrences, collectList_eq_addAll met members]
  | set item _ => by simp only [collect, occurrences, collect_eq_addAll met item]
  | option item => by simp only [collect, occurrences, collect_eq_addAll met item]
  | literal _ | identifier _ | objectComposite _ _ => rfl

theorem collectList_eq_addAll (met : List ObjectId) : (ts : List ValueType) →
    collectList met ts = addAll met (occurrencesList ts)
  | [] => rfl
  | t :: rest => by
    simp only [collectList, occurrencesList, addAll_append, collect_eq_addAll met t,
      collectList_eq_addAll _ rest]

end

end ValueType

end ShaclTypes
