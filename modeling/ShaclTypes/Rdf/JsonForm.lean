import ShaclTypes.Json.Basic
import ShaclTypes.Json.Reading
import ShaclTypes.Rdf.Term
set_option autoImplicit false

/-!
# Terms in JSON form

A term is an object of two fields: `termType` names its kind and `value` holds
the IRI, the label or the literal.  Reading is more lenient than writing: the
fields may come in either order, other fields are passed over, and the kind may
be an object whose single field is the kind and null.  If the value comes before
the kind it has to be plain, because it is kept aside until the kind is known.
Records may also be written as arrays of their fields; the kind is then a text.
-/

namespace ShaclTypes.Rdf

open ShaclTypes.Json

/-! ## Writing -/

/-- The JSON form of a literal; a missing language is null. -/
def Literal.toJson (l : Literal) : Json :=
  .object [("lexical", .text l.lexical), ("datatype", .text l.datatype.text),
    ("language", .text? l.language)]

/-- The JSON form of a term. -/
def Term.toJson : Term → Json
  | iri i => .object [("termType", .text "Iri"), ("value", .text i.text)]
  | blank label => .object [("termType", .text "BlankNode"), ("value", .text label)]
  | literal l => .object [("termType", .text "Literal"), ("value", l.toJson)]

/-- The JSON form of a statement. -/
def Triple.toJson (t : Triple) : Json :=
  .object [("subject", t.subject.toJson), ("predicate", .text t.predicate.text),
    ("object", t.object.toJson)]

/-! ## Reading -/

/-- The literal in an object, in which the language may be missing, or in an
array of all three fields. -/
def Literal.ofDocument? : Nat → Document → Option Literal
  | _ + 1, .object fields => do
    let known ← Document.known? ["lexical", "datatype", "language"] fields
    let lexical ← (← known.lookup "lexical").text?
    let datatype ← (← known.lookup "datatype").text?
    let language ← ((known.lookup "language").getD .null).optionalText?
    return ⟨lexical, ⟨datatype⟩, language⟩
  | _ + 1, .array [lexical, datatype, language] => do
    return ⟨← lexical.text?, ⟨← datatype.text?⟩, ← language.optionalText?⟩
  | _, _ => none

/-- The kinds of terms, as the field `termType` tells them apart. -/
inductive TermKind where
  | iri
  | blank
  | literal
  deriving DecidableEq, Repr

namespace TermKind

/-- The kind with a given name. -/
def ofName? : String → Option TermKind
  | "Iri" => some iri
  | "BlankNode" => some blank
  | "Literal" => some literal
  | _ => none

/-- The kind that a document names, by a text or by an object of one null field. -/
def ofDocument? : Nat → Document → Option TermKind
  | _, .string (some name) => ofName? name
  | _ + 1, .object [(some name, .null)] => ofName? name
  | _, _ => none

/-- A term of the given kind. -/
def read (kind : TermKind) (room : Nat) (content : Document) : Option Term :=
  match kind with
  | iri => content.text?.map fun text => .iri ⟨text⟩
  | blank => content.text?.map .blank
  | literal => (Literal.ofDocument? room content).map .literal

end TermKind

/-- The term in an object with a kind and a value, or in an array of the two, in
which the kind has to be a text. -/
def Term.ofDocument? : Nat → Document → Option Term
  | room + 1, .object fields => do
    let known ← Document.known? ["termType", "value"] fields
    let kind ← TermKind.ofDocument? room (← known.lookup "termType")
    let content ← known.lookup "value"
    let keptAside := known.head?.map Prod.fst == some "value"
    if keptAside && !content.isPlain room then none else kind.read room content
  | room + 1, .array [kind, content] => do
    (← TermKind.ofName? (← kind.text?)).read room content
  | _, _ => none

/-- The statement in an object of three fields, or in an array of the three. -/
def Triple.ofDocument? : Nat → Document → Option Triple
  | room + 1, .object fields => do
    let known ← Document.known? ["subject", "predicate", "object"] fields
    let subject ← Term.ofDocument? room (← known.lookup "subject")
    let predicate ← (← known.lookup "predicate").text?
    let object ← Term.ofDocument? room (← known.lookup "object")
    return ⟨subject, ⟨predicate⟩, object⟩
  | room + 1, .array [subject, predicate, object] => do
    return ⟨← Term.ofDocument? room subject, ⟨← predicate.text?⟩, ← Term.ofDocument? room object⟩
  | _, _ => none

/-- The term that a JSON text holds. -/
def Term.ofJsonText? (text : String) : Option Term :=
  (Document.ofText? text).bind (Term.ofDocument? nestingLimit)

/-- The statement that a JSON text holds. -/
def Triple.ofJsonText? (text : String) : Option Triple :=
  (Document.ofText? text).bind (Triple.ofDocument? nestingLimit)

end ShaclTypes.Rdf
