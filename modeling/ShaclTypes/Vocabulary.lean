import ShaclTypes.Rdf.Term
set_option autoImplicit false

/-!
# Vocabularies

The IRIs that shapes are written with: RDF, RDF Schema, OWL, the XML Schema
datatypes, SHACL, and the annotations with which a shape steers how its type is
generated.  Where an IRI's local name is a word that Lean keeps for itself, the
constant spells out what the IRI stands for (`sh.enumeration` is `sh:in`).  The
namespaces are spelled like the customary IRI abbreviations.
-/

namespace ShaclTypes.Vocabulary

open ShaclTypes.Rdf (Iri)

/-! ## RDF -/

namespace rdf

/-- The RDF namespace. -/
def base : String := "http://www.w3.org/1999/02/22-rdf-syntax-ns#"

def type : Iri := ⟨"http://www.w3.org/1999/02/22-rdf-syntax-ns#type"⟩
def first : Iri := ⟨"http://www.w3.org/1999/02/22-rdf-syntax-ns#first"⟩
def rest : Iri := ⟨"http://www.w3.org/1999/02/22-rdf-syntax-ns#rest"⟩
def nil : Iri := ⟨"http://www.w3.org/1999/02/22-rdf-syntax-ns#nil"⟩
def list : Iri := ⟨"http://www.w3.org/1999/02/22-rdf-syntax-ns#List"⟩
def langString : Iri := ⟨"http://www.w3.org/1999/02/22-rdf-syntax-ns#langString"⟩

end rdf

/-! ## RDF Schema -/

namespace rdfs

/-- The RDF Schema namespace. -/
def base : String := "http://www.w3.org/2000/01/rdf-schema#"

def cls : Iri := ⟨"http://www.w3.org/2000/01/rdf-schema#Class"⟩
def comment : Iri := ⟨"http://www.w3.org/2000/01/rdf-schema#comment"⟩
def label : Iri := ⟨"http://www.w3.org/2000/01/rdf-schema#label"⟩
def resource : Iri := ⟨"http://www.w3.org/2000/01/rdf-schema#Resource"⟩
def subClassOf : Iri := ⟨"http://www.w3.org/2000/01/rdf-schema#subClassOf"⟩

end rdfs

/-! ## OWL -/

namespace owl

/-- The OWL namespace. -/
def base : String := "http://www.w3.org/2002/07/owl#"

def cls : Iri := ⟨"http://www.w3.org/2002/07/owl#Class"⟩
def thing : Iri := ⟨"http://www.w3.org/2002/07/owl#Thing"⟩

end owl

/-! ## XML Schema datatypes -/

namespace xsd

/-- The namespace of the XML Schema datatypes. -/
def base : String := "http://www.w3.org/2001/XMLSchema#"

def boolean : Iri := ⟨"http://www.w3.org/2001/XMLSchema#boolean"⟩
def integer : Iri := ⟨"http://www.w3.org/2001/XMLSchema#integer"⟩
def string : Iri := ⟨"http://www.w3.org/2001/XMLSchema#string"⟩

end xsd

/-! ## SHACL -/

namespace sh

/-- The SHACL namespace. -/
def base : String := "http://www.w3.org/ns/shacl#"

def nodeShape : Iri := ⟨"http://www.w3.org/ns/shacl#NodeShape"⟩
def propertyShape : Iri := ⟨"http://www.w3.org/ns/shacl#PropertyShape"⟩
def property : Iri := ⟨"http://www.w3.org/ns/shacl#property"⟩
def path : Iri := ⟨"http://www.w3.org/ns/shacl#path"⟩
def inversePath : Iri := ⟨"http://www.w3.org/ns/shacl#inversePath"⟩
def alternativePath : Iri := ⟨"http://www.w3.org/ns/shacl#alternativePath"⟩
def zeroOrMorePath : Iri := ⟨"http://www.w3.org/ns/shacl#zeroOrMorePath"⟩
def oneOrMorePath : Iri := ⟨"http://www.w3.org/ns/shacl#oneOrMorePath"⟩
def zeroOrOnePath : Iri := ⟨"http://www.w3.org/ns/shacl#zeroOrOnePath"⟩
def conjunction : Iri := ⟨"http://www.w3.org/ns/shacl#and"⟩
def disjunction : Iri := ⟨"http://www.w3.org/ns/shacl#or"⟩
def exclusiveDisjunction : Iri := ⟨"http://www.w3.org/ns/shacl#xone"⟩
def node : Iri := ⟨"http://www.w3.org/ns/shacl#node"⟩
def cls : Iri := ⟨"http://www.w3.org/ns/shacl#class"⟩
def datatype : Iri := ⟨"http://www.w3.org/ns/shacl#datatype"⟩
def nodeKind : Iri := ⟨"http://www.w3.org/ns/shacl#nodeKind"⟩
def hasValue : Iri := ⟨"http://www.w3.org/ns/shacl#hasValue"⟩
def enumeration : Iri := ⟨"http://www.w3.org/ns/shacl#in"⟩
def defaultValue : Iri := ⟨"http://www.w3.org/ns/shacl#defaultValue"⟩
def languageIn : Iri := ⟨"http://www.w3.org/ns/shacl#languageIn"⟩
def minCount : Iri := ⟨"http://www.w3.org/ns/shacl#minCount"⟩
def maxCount : Iri := ⟨"http://www.w3.org/ns/shacl#maxCount"⟩
def minInclusive : Iri := ⟨"http://www.w3.org/ns/shacl#minInclusive"⟩
def minExclusive : Iri := ⟨"http://www.w3.org/ns/shacl#minExclusive"⟩
def maxInclusive : Iri := ⟨"http://www.w3.org/ns/shacl#maxInclusive"⟩
def maxExclusive : Iri := ⟨"http://www.w3.org/ns/shacl#maxExclusive"⟩
def name : Iri := ⟨"http://www.w3.org/ns/shacl#name"⟩
def targetClass : Iri := ⟨"http://www.w3.org/ns/shacl#targetClass"⟩
def blankNode : Iri := ⟨"http://www.w3.org/ns/shacl#BlankNode"⟩
def iri : Iri := ⟨"http://www.w3.org/ns/shacl#IRI"⟩
def literal : Iri := ⟨"http://www.w3.org/ns/shacl#Literal"⟩
def blankNodeOrIri : Iri := ⟨"http://www.w3.org/ns/shacl#BlankNodeOrIRI"⟩
def blankNodeOrLiteral : Iri := ⟨"http://www.w3.org/ns/shacl#BlankNodeOrLiteral"⟩
def iriOrLiteral : Iri := ⟨"http://www.w3.org/ns/shacl#IRIOrLiteral"⟩

end sh

/-! ## Generator annotations -/

namespace gen

/-- The namespace of the generator annotations. -/
def base : String := "https://shaclgen.dev/ns#"

def isAbstract : Iri := ⟨"https://shaclgen.dev/ns#abstract"⟩
def declarationPreference : Iri := ⟨"https://shaclgen.dev/ns#declarationPreference"⟩
def exported : Iri := ⟨"https://shaclgen.dev/ns#export"⟩
def isExternal : Iri := ⟨"https://shaclgen.dev/ns#extern"⟩
def inline : Iri := ⟨"https://shaclgen.dev/ns#inline"⟩
def name : Iri := ⟨"https://shaclgen.dev/ns#name"⟩
def nodeKind : Iri := ⟨"https://shaclgen.dev/ns#nodeKind"⟩
def rdfType : Iri := ⟨"https://shaclgen.dev/ns#rdfType"⟩
def visibility : Iri := ⟨"https://shaclgen.dev/ns#visibility"⟩
def identifierMintingStrategy : Iri := ⟨"https://shaclgen.dev/ns#identifierMintingStrategy"⟩
def identifierPropertyName : Iri := ⟨"https://shaclgen.dev/ns#identifierPropertyName"⟩
def typeDiscriminatorPropertyName : Iri := ⟨"https://shaclgen.dev/ns#typeDiscriminatorPropertyName"⟩
def sha256 : Iri := ⟨"https://shaclgen.dev/ns#_IdentifierMintingStrategy_SHA256"⟩
def uuidv4 : Iri := ⟨"https://shaclgen.dev/ns#_IdentifierMintingStrategy_UUIDv4"⟩
def preferClass : Iri := ⟨"https://shaclgen.dev/ns#_DeclarationPreference_Class"⟩
def preferInterface : Iri := ⟨"https://shaclgen.dev/ns#_DeclarationPreference_Interface"⟩
def privateVisibility : Iri := ⟨"https://shaclgen.dev/ns#_Visibility_Private"⟩
def protectedVisibility : Iri := ⟨"https://shaclgen.dev/ns#_Visibility_Protected"⟩
def publicVisibility : Iri := ⟨"https://shaclgen.dev/ns#_Visibility_Public"⟩

end gen

/-! ## Classes that say nothing -/

/-- Classes every class or resource belongs to: a `sh:class` that names one of
them carries no type information. -/
def nonInformativeClasses : List Iri := [owl.cls, owl.thing, rdfs.cls, rdfs.resource]

/-- Whether a class carries no type information. -/
def isNonInformative (cls : Iri) : Bool := nonInformativeClasses.contains cls

end ShaclTypes.Vocabulary
