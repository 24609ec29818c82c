import ShaclTypes.Json.Basic
import ShaclTypes.Model.Basic
import ShaclTypes.Rdf.NTriples
set_option autoImplicit false

/-!
# Model summaries

A model as a JSON tree in which entries refer to one another by name, so that
it has no cycles.  There is a summary if and only if every reference leads to
an entry; `none` is the answer for a model with a dangling one.
-/

namespace ShaclTypes

open ShaclTypes.Rdf

/-- The names of the kinds in a set. -/
def NodeKinds.toJson (s : NodeKinds) : Json := .texts (s.toList.map NodeKind.name)

/-- Terms in N-Triples form. -/
def Json.terms (terms : List Term) : Json := .texts (terms.map Term.ntriples)

/-- The summary of a literal type; what is absent is left out. -/
def LiteralType.summary (t : LiteralType) : Json :=
  .object <|
    [("kind", .text "LiteralType")]
    ++ Json.field? "datatype" t.datatype (fun i => .text i.text)
    ++ Json.field? "defaultValue" t.defaultValue (fun l => .text l.ntriples)
    ++ Json.fieldList "hasValues" t.fixedValues (fun l => .text l.ntriples)
    ++ Json.fieldList "in" t.enumeration (fun l => .text l.ntriples)
    ++ Json.fieldList "languageIn" t.languages .text
    ++ Json.field? "minInclusive" t.bounds.minInclusive (fun l => .text l.lexical)
    ++ Json.field? "minExclusive" t.bounds.minExclusive (fun l => .text l.lexical)
    ++ Json.field? "maxInclusive" t.bounds.maxInclusive (fun l => .text l.lexical)
    ++ Json.field? "maxExclusive" t.bounds.maxExclusive (fun l => .text l.lexical)

/-- The summary of an identifier type; values that are absent are left out. -/
def IdentifierType.summary (t : IdentifierType) : Json :=
  .object <|
    [("kind", .text "IdentifierType"), ("nodeKinds", t.kinds.toJson)]
    ++ Json.field? "defaultValue" t.defaultValue (fun v => .text v.ntriples)
    ++ Json.fieldList "hasValues" t.fixedValues (fun v => .text v.ntriples)
    ++ Json.fieldList "in" t.enumeration (fun v => .text v.ntriples)

namespace TypeModel

/-- The name of an object type. -/
def objectName? (m : TypeModel) (id : ObjectId) : Option String :=
  (m.object? id).map fun o => o.name.sanitized

/-- The name of a composite. -/
def compositeName? (m : TypeModel) (kind : CompositeKind) (id : CompositeId) : Option String :=
  (m.composite? kind id).map fun c => c.name.sanitized

/-- The names of object types. -/
def objectNames? (m : TypeModel) (ids : List ObjectId) : Option Json :=
  (ids.mapM m.objectName?).map .texts

mutual

/-- The summary of a value type. -/
def typeSummary? (m : TypeModel) : ValueType → Option Json
  | .literal t => some t.summary
  | .identifier t => some t.summary
  | .composite kind members => do
    let members' ← typeSummaries? m members
    return .object [("kind", .text (ValueType.composite kind members).kindName),
      ("memberTypes", .array members')]
  | .set item minCount => do
    return .object [("kind", .text "SetType"), ("itemType", ← typeSummary? m item),
      ("minCount", .count minCount)]
  | .option item => do
    return .object [("kind", .text "OptionType"), ("itemType", ← typeSummary? m item)]
  | .object id inline => do
    return .object [("kind", .text "ObjectType"), ("name", .text (← m.objectName? id)),
      ("inline", .bool inline)]
  | .objectComposite kind id => do
    return .object [("kind", .text (ValueType.objectComposite kind id).kindName),
      ("name", .text (← m.compositeName? kind id))]

/-- The summaries of a list of value types. -/
def typeSummaries? (m : TypeModel) : List ValueType → Option (List Json)
  | [] => some []
  | t :: rest => do return (← typeSummary? m t) :: (← typeSummaries? m rest)

end

/-- The summary of a property. -/
def propertySummary? (m : TypeModel) (p : Property) : Option Json := do
  return .object [("name", .text p.name.sanitized), ("path", .text p.path.text),
    ("type", ← m.typeSummary? p.type), ("visibility", .text p.visibility.name)]

/-- The summary of an object type; the type of list items is left out where there is none. -/
def objectSummary? (m : TypeModel) (o : ObjectType) : Option Json := do
  let properties ← o.properties.mapM m.propertySummary?
  let parents ← m.objectNames? o.parents
  let ancestors ← m.objectNames? o.ancestors
  let children ← m.objectNames? o.children
  let descendants ← m.objectNames? o.descendants
  let listItemType ← o.listItemType.mapM m.typeSummary?
  return .object <|
    [("name", .text o.name.sanitized), ("identifier", .text o.name.identifier.ntriples),
     ("abstract", .bool o.isAbstract), ("export", .bool o.exported), ("extern", .bool o.isExternal),
     ("nodeKinds", o.kinds.toJson),
     ("mintingStrategy", .text? (o.mintingStrategy.map MintingStrategy.name)),
     ("rdfType", .text? (o.rdfType.map Iri.text)),
     ("identifierPropertyName", .text o.identifierPropertyName),
     ("typeDiscriminatorPropertyName", .text o.typeDiscriminatorPropertyName),
     ("properties", .array properties), ("parentObjectTypes", parents),
     ("ancestorObjectTypes", ancestors), ("childObjectTypes", children),
     ("descendantObjectTypes", descendants)]
    ++ Json.field? "listItemType" listItemType id

/-- The summary of a composite of object types. -/
def compositeSummary? (m : TypeModel) (c : ObjectComposite) : Option Json := do
  return .object [("name", .text c.name.sanitized), ("export", .bool c.exported),
    ("declarationPreference", .text c.preference.name),
    ("memberTypes", ← m.objectNames? c.members)]

/-- The summary of a model. -/
def summary? (m : TypeModel) : Option Json := do
  return .object [("objectTypes", .array (← m.objects.mapM m.objectSummary?)),
    ("objectIntersectionTypes", .array (← m.intersections.mapM m.compositeSummary?)),
    ("objectUnionTypes", .array (← m.unions.mapM m.compositeSummary?))]

end TypeModel

end ShaclTypes
