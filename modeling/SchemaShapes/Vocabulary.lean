/-!
# Vocabulary

The IRIs of RDF, XML Schema datatypes and SHACL that shapes graphs are written with.

* `namespaces`: the namespaces with a short name, in the order in which they are declared.
-/

namespace SchemaShapes

/-- A full IRI. -/
abbrev Iri := String

namespace Rdf

/-- The RDF namespace. -/
def space : Iri := "http://www.w3.org/1999/02/22-rdf-syntax-ns#"

def type : Iri := space ++ "type"
def first : Iri := space ++ "first"
def rest : Iri := space ++ "rest"
def nil : Iri := space ++ "nil"

end Rdf

namespace Xsd

/-- The namespace of XML Schema datatypes. -/
def space : Iri := "http://www.w3.org/2001/XMLSchema#"

def string : Iri := space ++ "string"
def boolean : Iri := space ++ "boolean"
def integer : Iri := space ++ "integer"
def decimal : Iri := space ++ "decimal"
def float : Iri := space ++ "float"
def double : Iri := space ++ "double"
def date : Iri := space ++ "date"
def dateTime : Iri := space ++ "dateTime"
def time : Iri := space ++ "time"
def anyUri : Iri := space ++ "anyURI"

end Xsd

namespace Sh

/-- The SHACL namespace. -/
def space : Iri := "http://www.w3.org/ns/shacl#"

def nodeShape : Iri := space ++ "NodeShape"
def targetClass : Iri := space ++ "targetClass"
def closed : Iri := space ++ "closed"
def ignoredProperties : Iri := space ++ "ignoredProperties"
def property : Iri := space ++ "property"
def path : Iri := space ++ "path"
def name : Iri := space ++ "name"
def description : Iri := space ++ "description"
def order : Iri := space ++ "order"
def minCount : Iri := space ++ "minCount"
def maxCount : Iri := space ++ "maxCount"
def datatype : Iri := space ++ "datatype"
def classIri : Iri := space ++ "class"
def inList : Iri := space ++ "in"
def orList : Iri := space ++ "or"
def nodeKind : Iri := space ++ "nodeKind"
def literalKind : Iri := space ++ "Literal"
def resourceKind : Iri := space ++ "BlankNodeOrIRI"
def defaultValue : Iri := space ++ "defaultValue"
def pattern : Iri := space ++ "pattern"
def minInclusive : Iri := space ++ "minInclusive"
def maxInclusive : Iri := space ++ "maxInclusive"

end Sh

/-- **The short names** of namespaces. -/
def namespaces : List (String × Iri) :=
  [("sh", Sh.space), ("rdf", Rdf.space), ("xsd", Xsd.space)]

end SchemaShapes
