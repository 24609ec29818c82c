import ShaclTypes.Model.ValueType
set_option autoImplicit false

/-!
# Scalar types

A shape that refers to no other shape is typed by its own constraints: as a
literal if they speak of a datatype, of bounds, of literal values or of the
kind literal alone, and otherwise as an identifier if they speak of identifier
values or of identifier kinds.  The literal rule comes first, and constraints
to which neither applies leave the type open (`scalarType?`).
-/

namespace ShaclTypes

open ShaclTypes.Rdf

/-- What the scalar rules look at: the constraints of a shape and the default
value that is in force, which may come from a shape around it. -/
structure ScalarEvidence where
  constraints : Constraints
  defaultValue : Option Term
  deriving Repr

namespace ScalarEvidence

/-- The values that the constraints fix, enumerate or presuppose. -/
def values (x : ScalarEvidence) : List Term :=
  x.constraints.fixedValues ++ x.constraints.enumeration ++ x.defaultValue.toList

/-- Whether there are values, and all of them pass a test. -/
def allValues (x : ScalarEvidence) (test : Term → Bool) : Bool :=
  !x.values.isEmpty && x.values.all test

/-- Whether the constraints describe a literal. -/
def isLiteral (x : ScalarEvidence) : Bool :=
  x.constraints.datatype.isSome || x.constraints.bounds.any || x.allValues Term.isLiteral ||
    x.constraints.nodeKinds == .single .literal

/-- Whether the constraints describe an identifier. -/
def isIdentifier (x : ScalarEvidence) : Bool :=
  x.allValues Term.isIdentifier ||
    (!x.constraints.nodeKinds.isEmpty && !x.constraints.nodeKinds.literal)

/-- The literal type of the constraints; values that are no literals are left out. -/
def literalType (x : ScalarEvidence) : LiteralType where
  datatype := x.constraints.datatype
  defaultValue := x.defaultValue.bind Term.literal?
  fixedValues := x.constraints.fixedValues.filterMap Term.literal?
  enumeration := x.constraints.enumeration.filterMap Term.literal?
  languages := x.constraints.languages
  bounds := x.constraints.bounds

/-- The identifier kinds among the values, or both if there are none. -/
def inferredKinds (x : ScalarEvidence) : NodeKinds :=
  let kinds := NodeKinds.ofList ((x.values.filter Term.isIdentifier).map NodeKind.ofTerm)
  if kinds.isEmpty then .identifiers else kinds

/-- The identifier type of the constraints; values that are literals are left
out.  Without node kinds of its own it has those of its values. -/
def identifierType (x : ScalarEvidence) : IdentifierType where
  kinds :=
    if x.constraints.nodeKinds.isEmpty then x.inferredKinds else x.constraints.nodeKinds
  defaultValue := x.defaultValue.filter Term.isIdentifier
  fixedValues := x.constraints.fixedValues.filter Term.isIdentifier
  enumeration := x.constraints.enumeration.filter Term.isIdentifier

end ScalarEvidence

/-! ## Rules -/

/-- The scalar rules. -/
inductive ScalarRule where
  | literal
  | identifier
  deriving DecidableEq, Repr

namespace ScalarRule

/-- The rules, in the order in which they are tried. -/
def all : List ScalarRule := [literal, identifier]

/-- The name of the rule. -/
def name : ScalarRule → String
  | literal => "literal"
  | identifier => "identifier"

/-- Whether a rule applies. -/
def applies (x : ScalarEvidence) : ScalarRule → Bool
  | literal => x.isLiteral
  | identifier => x.isIdentifier

/-- The type that a rule gives. -/
def type (x : ScalarEvidence) : ScalarRule → ValueType
  | literal => .literal x.literalType
  | identifier => .identifier x.identifierType

end ScalarRule

/-- The type by the first rule that applies. -/
def scalarType? (x : ScalarEvidence) : Option ValueType :=
  (ScalarRule.all.find? (ScalarRule.applies x)).map (ScalarRule.type x)

theorem scalarType?_eq_none {x : ScalarEvidence} :
    scalarType? x = none ↔ x.isLiteral = false ∧ x.isIdentifier = false := by
  simp [scalarType?, ScalarRule.all, ScalarRule.applies]

end ShaclTypes
