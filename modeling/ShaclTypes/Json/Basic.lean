set_option autoImplicit false

/-!
# JSON values that are written

The values in which reports, settings and terms are presented.  Numbers are
counts, so a natural number is all that is needed, and an object keeps its
fields in the order in which they were put there.
-/

namespace ShaclTypes

/-- A JSON value. -/
inductive Json where
  | null
  | bool (value : Bool)
  | count (value : Nat)
  | text (value : String)
  | array (items : List Json)
  | object (fields : List (String × Json))
  deriving Repr, Inhabited

namespace Json

/-- An array of texts. -/
def texts (values : List String) : Json := array (values.map text)

/-- A text, or null where there is none. -/
def text? : Option String → Json
  | some value => text value
  | none => null

/-- A field that is written only if there is a value for it. -/
def field? {α : Type} (name : String) (value : Option α) (encode : α → Json) :
    List (String × Json) :=
  match value with
  | some v => [(name, encode v)]
  | none => []

/-- A field for a list that is written only if the list has an entry. -/
def fieldList {α : Type} (name : String) (values : List α) (encode : α → Json) :
    List (String × Json) :=
  if values.isEmpty then [] else [(name, array (values.map encode))]

@[simp] theorem field?_none {α : Type} (name : String) (encode : α → Json) :
    field? name none encode = [] := rfl

@[simp] theorem fieldList_nil {α : Type} (name : String) (encode : α → Json) :
    fieldList name [] encode = [] := rfl

end Json

end ShaclTypes
