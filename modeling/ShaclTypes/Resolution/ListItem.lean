import ShaclTypes.Model.Basic
import ShaclTypes.Vocabulary
set_option autoImplicit false

/-!
# Types shaped like RDF lists

An object type is a list cell if it has exactly two properties, one for
`rdf:first` and one for `rdf:rest`, and the rest is either another cell of the
same type or an identifier, which stands for the end of the list.  The items of
the list then have the type of `rdf:first`.
-/

namespace ShaclTypes

open ShaclTypes.Vocabulary

namespace ValueType

/-- Whether the type is a reference to an object type. -/
def isReferenceTo (id : ObjectId) (t : ValueType) : Bool := t.object? == some id

/-- Whether the type is an identifier. -/
def isIdentifier : ValueType → Bool
  | identifier _ => true
  | _ => false

/-- Whether the type is a union of a list cell and the end of the list, in either order. -/
def isListTail (cell : ObjectId) (t : ValueType) : Bool :=
  match t.withoutCardinality with
  | composite .union [a, b] =>
    (a.isReferenceTo cell && b.isIdentifier) || (a.isIdentifier && b.isReferenceTo cell)
  | _ => false

end ValueType

/-- The type of the items, if the object type with the given number is a list cell. -/
def ObjectType.itemTypeAs? (o : ObjectType) (id : ObjectId) : Option ValueType :=
  if o.properties.length = 2 then do
    let first ← o.property? rdf.first
    let rest ← o.property? rdf.rest
    if rest.type.isListTail id then some first.type else none
  else none

end ShaclTypes
