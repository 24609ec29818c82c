import ShaclTypes.Model.Name
import ShaclTypes.Naming.Sanitized
import ShaclTypes.Rdf.NTriples
import ShaclTypes.Rdf.PrefixMap
import ShaclTypes.Shape.Basic
set_option autoImplicit false

/-!
# Choosing names

A shape is named by the first hint that it has: an explicit name, a label, a
compact IRI, the predicate of its path, and if there is none of these, its
identifier in N-Triples form.  Spaces in a label and the colons of a compact IRI
become underscores, and whatever is chosen is sanitized.
-/

namespace ShaclTypes

open ShaclTypes.Rdf

/-- What names are resolved with. -/
structure Namer where
  prefixes : PrefixMap
  settings : Settings
  deriving Repr

namespace Namer

/-- The text with every occurrence of a character replaced by an underscore. -/
def underscored (c : Char) (text : String) : String :=
  String.ofList (text.toList.map fun d => if d = c then '_' else d)

/-- The written compact form of an IRI. -/
def curie? (n : Namer) (iri : Iri) : Option String := (n.prefixes.shrink iri).map Curie.text

/-- The hints in the path of a property shape. -/
def pathName? (n : Namer) (s : Shape) : Option PathName :=
  (s.path.bind Path.predicate?).map fun iri => ⟨iri, n.curie? iri⟩

/-- The compact form of a shape's identifier. -/
def shapeCurie? (n : Namer) (s : Shape) : Option String := s.identifier.iri?.bind n.curie?

/-- The name that a path suggests. -/
def ofPath (p : PathName) : String :=
  match p.curie with
  | some curie => underscored ':' curie
  | none => p.iri.text

/-- The first hint that a shape has. -/
def candidate (n : Namer) (s : Shape) : String :=
  (s.annotations.name
    <|> s.annotations.label.map (underscored ' ')
    <|> (n.shapeCurie? s).map (underscored ':')
    <|> (n.pathName? s).map ofPath).getD s.identifier.ntriples

/-- The name of a shape, with every hint that it has. -/
def name (n : Namer) (s : Shape) : Name where
  identifier := s.identifier
  curie := n.shapeCurie? s
  label := s.annotations.label
  explicit := s.annotations.name
  path := n.pathName? s
  sanitized := n.settings.sanitize (n.candidate s)

end Namer

end ShaclTypes
