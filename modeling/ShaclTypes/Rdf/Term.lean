set_option autoImplicit false

/-!
# RDF terms

An RDF term is an IRI, a blank node or a literal.  Nothing here is validated:
an IRI is whatever text stands in its place, and a literal may carry any
datatype beside its language tag.  The two named constructors `Literal.string`
and `Literal.tagged` build the literals for which the datatype is implied.
-/

namespace ShaclTypes.Rdf

/-- An IRI, kept as its text. -/
structure Iri where
  text : String
  deriving DecidableEq, Repr, Inhabited

/-- A literal: its lexical form, its datatype and, for tagged text, a language. -/
structure Literal where
  lexical : String
  datatype : Iri
  language : Option String
  deriving DecidableEq, Repr, Inhabited

/-- An RDF term.  A blank node holds its label without the leading `_:`. -/
inductive Term where
  | iri (iri : Iri)
  | blank (label : String)
  | literal (literal : Literal)
  deriving DecidableEq, Repr, Inhabited

/-- A statement: subject, predicate and object. -/
structure Triple where
  subject : Term
  predicate : Iri
  object : Term
  deriving DecidableEq, Repr, Inhabited

namespace Term

/-- The IRI that the term is, if it is one. -/
def iri? : Term → Option Iri
  | iri i => some i
  | blank _ | literal _ => none

/-- The literal that the term is, if it is one. -/
def literal? : Term → Option Literal
  | literal l => some l
  | iri _ | blank _ => none

/-- Whether the term is a literal. -/
def isLiteral : Term → Bool
  | literal _ => true
  | iri _ | blank _ => false

/-- Whether the term can name a resource: it is an IRI or a blank node. -/
def isIdentifier (t : Term) : Bool := !t.isLiteral

/-- Whether the term is the IRI `i`. -/
def isIri (t : Term) (i : Iri) : Bool := t == iri i

@[simp] theorem iri?_eq_some {t : Term} {i : Iri} : t.iri? = some i ↔ t = iri i := by
  cases t <;> simp [iri?]

@[simp] theorem literal?_eq_some {t : Term} {l : Literal} : t.literal? = some l ↔ t = literal l := by
  cases t <;> simp [literal?]

@[simp] theorem isIri_eq_true {t : Term} {i : Iri} : t.isIri i = true ↔ t = iri i := by
  simp [isIri]

end Term

end ShaclTypes.Rdf
