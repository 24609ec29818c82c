import ShaclTypes.Model.ValueType
set_option autoImplicit false

/-!
# Cardinality

How many values there can be decides what is put around the type of one: an
option for at most one, a set for more, and nothing for exactly one.  A default
value makes a single value certain.  Without bounds a property has a set of
values, while a member of a composite is left to the composite around it.
-/

namespace ShaclTypes

/-- What the cardinality of a type is decided by. -/
structure Cardinality where
  minCount : Option Nat
  maxCount : Option Nat
  /-- whether a default value is in force -/
  hasDefault : Bool
  /-- whether the type is a member of a composite -/
  nested : Bool
  deriving DecidableEq, Repr

/-- The type with what its cardinality puts around it.  A missing minimum is zero. -/
def Cardinality.wrap (c : Cardinality) (item : ValueType) : ValueType :=
  if c.hasDefault then item
  else match c.minCount, c.maxCount with
    | none, none => if c.nested then item else .set item 0
    | none, some 1 | some 0, some 1 => .option item
    | some 1, some 1 => item
    | minCount, _ => .set item (minCount.getD 0)

/-- Wrapping hides nothing: the item is still what is under the cardinality. -/
theorem Cardinality.withoutCardinality_wrap (c : Cardinality) (item : ValueType) :
    (c.wrap item).withoutCardinality = item.withoutCardinality := by
  unfold wrap
  repeat' split
  all_goals rfl

end ShaclTypes
