import ShaclTypes.Json.Token
set_option autoImplicit false

/-!
# JSON documents that are read

A document is the tree of a JSON text before anyone has asked what it means: it
keeps repeated fields, numbers of any size, and strings that stand for no text.
Brackets may be nested to any depth, and the reading of a document decides
later which of these it can accept.

The tree is built by one pass over the tokens with a stack of the brackets that
are still open, so that its work is proportional to the text.
-/

namespace ShaclTypes.Json

/-- A JSON document.  A string or a field name whose escapes leave a surrogate
unpaired is `none`. -/
inductive Document where
  | null
  | bool (value : Bool)
  | number (value : Number)
  | string (value : Option String)
  | array (items : List Document)
  | object (fields : List (Option String × Document))
  deriving Repr, Inhabited

namespace Document

/-- A bracket that is still open, with what it holds so far, last first. -/
inductive Frame where
  | array (items : List Document)
  | object (fields : List (Option String × Document)) (name : Option String)
  deriving Repr, Inhabited

mutual

/-- Read on where a value has to begin. -/
def value (stack : List Frame) : List Token → Option Document
  | .null :: rest => afterValue stack .null rest
  | .bool b :: rest => afterValue stack (.bool b) rest
  | .number n :: rest => afterValue stack (.number n) rest
  | .string s :: rest => afterValue stack (.string s) rest
  | .openArray :: .closeArray :: rest => afterValue stack (.array []) rest
  | .openArray :: rest => value (.array [] :: stack) rest
  | .openObject :: .closeObject :: rest => afterValue stack (.object []) rest
  | .openObject :: .string name :: .colon :: rest => value (.object [] name :: stack) rest
  | _ => none

/-- Read on after a complete value: it ends the text, or goes on in the
innermost open bracket, or closes that bracket. -/
def afterValue (stack : List Frame) (v : Document) : List Token → Option Document
  | [] =>
    match stack with
    | [] => some v
    | _ :: _ => none
  | .comma :: .string name :: .colon :: rest =>
    match stack with
    | .object fields last :: outer => value (.object ((last, v) :: fields) name :: outer) rest
    | _ => none
  | .comma :: rest =>
    match stack with
    | .array items :: outer => value (.array (v :: items) :: outer) rest
    | _ => none
  | .closeArray :: rest =>
    match stack with
    | .array items :: outer => afterValue outer (.array (v :: items).reverse) rest
    | _ => none
  | .closeObject :: rest =>
    match stack with
    | .object fields last :: outer => afterValue outer (.object ((last, v) :: fields).reverse) rest
    | _ => none
  | _ => none

end

/-- The document that a text holds, if it is JSON from end to end. -/
def ofText? (text : String) : Option Document := (Token.ofText? text).bind (value [])

end Document

end ShaclTypes.Json
