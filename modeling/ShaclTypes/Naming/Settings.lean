import ShaclTypes.Json.Basic
import ShaclTypes.Json.Reading
set_option autoImplicit false

/-!
# Settings

Which identifiers are reserved in the languages that types are generated for,
how a reserved one is set apart, and what holds for shapes without annotations
of their own.  Settings are read from JSON text; a field that is missing keeps
its default, and the fields may also be given as an array in their order.
-/

namespace ShaclTypes

open ShaclTypes.Json

/-- The settings of a resolution. -/
structure Settings where
  /-- the reserved identifiers, ascending and each once -/
  reserved : List String
  /-- what is put before a reserved identifier -/
  reservedPrefix : String
  /-- what is put after a reserved identifier -/
  reservedSuffix : String
  /-- the name of the identifier property where a shape does not say -/
  identifierPropertyName : String
  /-- the name of the type discriminator where a shape does not say -/
  typeDiscriminatorPropertyName : String
  /-- whether a type is exported where its shape does not say -/
  exported : Bool
  deriving DecidableEq, Repr

namespace Settings

/-- The texts in ascending order, each once. -/
def ascending (texts : List String) : List String :=
  (texts.mergeSort fun a b => decide (a ≤ b)).eraseDups

theorem mem_ascending {texts : List String} {t : String} : t ∈ ascending texts ↔ t ∈ texts := by
  simp [ascending]

/-- Words that are keywords or globals in common target languages. -/
def standardReserved : List String :=
  ["abstract", "class", "const", "default", "enum", "export", "extends", "function", "import",
   "in", "interface", "let", "new", "null", "package", "private", "protected", "public", "return",
   "static", "super", "switch", "this", "type", "typeof", "var", "void", "while", "yield",
   "Object", "String", "Number", "Boolean", "Array"]

/-- The settings that hold unless others are given. -/
def standard : Settings where
  reserved := ascending standardReserved
  reservedPrefix := "_"
  reservedSuffix := "_"
  identifierPropertyName := "identifier"
  typeDiscriminatorPropertyName := "type"
  exported := true

instance : Inhabited Settings := ⟨standard⟩

/-- Whether an identifier is reserved. -/
def isReserved (s : Settings) (identifier : String) : Bool := s.reserved.contains identifier

/-! ## JSON -/

/-- The names of the fields, in order. -/
def fieldNames : List String :=
  ["reserved_identifiers", "reserved_identifier_prefix", "reserved_identifier_suffix",
   "default_identifier_property_name", "default_type_discriminator_property_name",
   "default_export"]

/-- The settings as a JSON object. -/
def toJson (s : Settings) : Json :=
  .object <| fieldNames.zip
    [.texts s.reserved, .text s.reservedPrefix, .text s.reservedSuffix,
     .text s.identifierPropertyName, .text s.typeDiscriminatorPropertyName, .bool s.exported]

/-- A field's value, or its default if the field is missing. -/
def readField {α : Type} (known : List (String × Document)) (name : String) (default : α)
    (read : Document → Option α) : Option α :=
  match known.lookup name with
  | none => some default
  | some value => read value

/-- The settings in a list of fields; `room` bounds the nesting inside them. -/
def ofFields? (room : Nat) (known : List (String × Document)) : Option Settings := do
  return {
    reserved := ← readField known "reserved_identifiers" standard.reserved fun d =>
      (d.texts? room).map ascending
    reservedPrefix := ← readField known "reserved_identifier_prefix" standard.reservedPrefix
      Document.text?
    reservedSuffix := ← readField known "reserved_identifier_suffix" standard.reservedSuffix
      Document.text?
    identifierPropertyName := ← readField known "default_identifier_property_name"
      standard.identifierPropertyName Document.text?
    typeDiscriminatorPropertyName := ← readField known "default_type_discriminator_property_name"
      standard.typeDiscriminatorPropertyName Document.text?
    exported := ← readField known "default_export" standard.exported Document.bool? }

/-- The settings in an object, or in an array of no more values than there are fields. -/
def ofDocument? : Nat → Document → Option Settings
  | room + 1, .object fields => do ofFields? room (← Document.known? fieldNames fields)
  | room + 1, .array items =>
    if fieldNames.length < items.length then none else ofFields? room (fieldNames.zip items)
  | _, _ => none

/-- The settings that a JSON text holds. -/
def ofJsonText? (text : String) : Option Settings :=
  (Document.ofText? text).bind (ofDocument? nestingLimit)

end Settings

end ShaclTypes
