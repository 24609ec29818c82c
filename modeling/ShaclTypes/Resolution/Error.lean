import ShaclTypes.Model.ValueType
import ShaclTypes.Shape.Message
import ShaclTypes.Text.Quoted
set_option autoImplicit false

/-!
# Why a shape cannot be resolved

The causes, and their wording.  A cause that lies in a member of a composite is
kept whole inside the failure of the composite.
-/

namespace ShaclTypes

open ShaclTypes.Rdf ShaclTypes.Text

/-- Why a shape cannot be resolved. -/
inductive ResolutionError where
  /-- a node-level composite lists too few members -/
  | tooFewDeclared (shape : Term) (count : Nat)
  /-- too few members of a node-level composite are object types -/
  | tooFewResolved (shape : Term) (cause : ModelError)
  /-- an inline shape is a member of itself -/
  | selfReference (shape : Term)
  /-- a member of a composite cannot be resolved -/
  | memberFailed (shape member : Term) (cause : ResolutionError)
  /-- the path is no predicate -/
  | unsupportedPath (shape : Term) (kind : String)
  /-- a property shape without a path -/
  | missingPath (shape : Term)
  /-- nothing in the constraints determines a type -/
  | undetermined (shape : Term)
  /-- no shape has this identifier -/
  | unknownShape (identifier : Term)
  /-- no class of a shape is a node shape that resolves -/
  | unresolvedClass (shape : Term) (classes : List Iri)
  /-- the model cannot be built as asked -/
  | model (cause : ModelError)
  /-- the shapes graph refers to what it does not have -/
  | shapes (cause : ShapeError)
  deriving DecidableEq, Repr

namespace ResolutionError

/-- The wording of a fault in the composition of a shape. -/
def composition (shape : Term) (reason : String) : String :=
  "Composition error on shape " ++ shape.ntriples ++ ": " ++ reason

/-- The wording of the error. -/
def message : ResolutionError → String
  | tooFewDeclared shape count =>
    composition shape
      ("declares " ++ toString count ++ " member(s), at least two are required")
  | tooFewResolved shape cause => composition shape cause.message
  | selfReference shape => composition shape "inline shape refers to itself"
  | memberFailed shape member cause =>
    composition shape ("member " ++ member.ntriples ++ " failed: " ++ cause.message)
  | unsupportedPath shape kind =>
    "Unsupported " ++ kind ++ " path on property shape " ++ shape.ntriples ++
      "; only predicate paths produce properties"
  | missingPath shape => "Property shape " ++ shape.ntriples ++ " has no sh:path"
  | undetermined shape => "Unable to infer a type for shape " ++ shape.ntriples
  | unknownShape identifier => "Unknown shape: " ++ identifier.ntriples
  | unresolvedClass shape classes =>
    "None of the classes on shape " ++ shape.ntriples ++ " resolve to a node shape: " ++
      quotedList (classes.map Iri.text)
  | model cause => "AST error: " ++ cause.message
  | shapes cause => "Shapes graph error: " ++ cause.message

end ResolutionError

end ShaclTypes
