import ShaclTypes.Model.ValueType
set_option autoImplicit false

/-!
# Collapsing composites

The members of a composite often say no more than a simpler type would.  A
single member stands for itself.  Unless a value is fixed, members that are all
unrestricted literals, whatever their cardinality, are one unrestricted
literal, and members that are all identifiers are one identifier of all their
kinds.  Everything else is an intersection or a union.
-/

namespace ShaclTypes

namespace ValueType

/-- The kinds of an identifier type. -/
def identifierKinds? : ValueType → Option NodeKinds
  | identifier t => some t.kinds
  | _ => none

/-- The simpler type that members without a fixed value may amount to. -/
def shortcut? (members : List ValueType) : Option ValueType :=
  if members.all fun t => t.withoutCardinality.isGenericLiteral then some (literal {})
  else (members.mapM identifierKinds?).map fun kinds => identifier { kinds := .unions kinds }

/-- One type for the members of a composite. -/
def collapse (kind : CompositeKind) (hasFixedValue : Bool) (members : List ValueType) :
    Except ModelError ValueType :=
  match members with
  | [member] => .ok member
  | members =>
    match if hasFixedValue then none else shortcut? members with
    | some t => .ok t
    | none => composite? kind members

@[simp] theorem collapse_singleton (kind : CompositeKind) (hasFixedValue : Bool)
    (member : ValueType) : collapse kind hasFixedValue [member] = .ok member := rfl

/-- What does not have exactly one member is simplified or made a composite. -/
theorem collapse_of_length_ne_one (kind : CompositeKind) (hasFixedValue : Bool)
    {members : List ValueType} (h : members.length ≠ 1) :
    collapse kind hasFixedValue members =
      (if hasFixedValue then none else shortcut? members).elim (composite? kind members) .ok := by
  unfold collapse
  split
  · exact absurd rfl h
  · split
    · next ht => rw [ht, Option.elim_some]
    · next hnone => rw [hnone, Option.elim_none]

end ValueType

end ShaclTypes
