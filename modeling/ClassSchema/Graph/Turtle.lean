import ClassSchema.Graph
import ClassSchema.Json.Quoted

/-! # Graphs in Turtle

A graph is written with the vocabulary of SHACL: a node shape for every class, with a property shape for
every property. A text is laid out in lines of tokens; IRIs and literals are tokens that end where their
content does, because what could end them before is escaped.
-/

namespace ClassSchema

/-- A token of Turtle. -/
inductive TurtleToken where
  /-- An IRI, between angle brackets. -/
  | iri (text : String)
  /-- A literal, between quotes. -/
  | literal (text : String)
  /-- A keyword, a prefixed name, a number or a mark, as it stands. -/
  | word (text : String)
deriving DecidableEq, Repr

/-- The characters of a token; the escapes of JSON texts are among those of Turtle literals. -/
def TurtleToken.chars : TurtleToken → List Char
  | .iri text => '<' :: (escapeIri text).toList ++ ['>']
  | .literal text => Json.quote text
  | .word text => text.toList

/-- A line: tokens behind an indentation. -/
structure TurtleLine where
  indentation : Nat
  tokens : List TurtleToken
deriving DecidableEq, Repr

/-- The characters of a line, with a space between tokens and a line break at the end. -/
def TurtleLine.chars (line : TurtleLine) : List Char :=
  List.replicate line.indentation ' ' ++ [' '].intercalate (line.tokens.map TurtleToken.chars) ++ ['\n']

namespace Turtle

/-- A statement about what the shape at hand is of. -/
def about (indentation : Nat) (verb : String) (object : TurtleToken) : TurtleLine :=
  ⟨indentation, [.word verb, object, .word ";"]⟩

/-- The declaration of a prefix. -/
def declaration (name uri : String) : TurtleLine :=
  ⟨0, [.word "@prefix", .word (name ++ ":"), .iri uri, .word "."]⟩

/-- The vocabularies that every text uses, with their prefixes. -/
def vocabularies : List (String × String) :=
  [("sh", "http://www.w3.org/ns/shacl#"), ("rdfs", "http://www.w3.org/2000/01/rdf-schema#"),
   ("xsd", xsdNamespace)]

/-- The comment for a description. -/
def comment (indentation : Nat) (description? : Option String) : List TurtleLine :=
  description?.toList.map fun description => about indentation "rdfs:comment" (.literal description)

/-- What a property shape says about the datatype. -/
def datatypeLines (graph : SchemaGraph) (datatype : Datatype) : List TurtleLine :=
  match datatype.xsdName? with
  | some name => [about 8 "sh:datatype" (.word ("xsd:" ++ name))]
  | none =>
    about 8 "sh:nodeKind" (.word "sh:IRI") ::
      (datatype.className?.bind graph.shape?).toList.map fun target => about 8 "sh:class" (.iri target.iri)

/-- The property shape of a property. -/
def propertyLines (graph : SchemaGraph) (property : ShapeProperty) : List TurtleLine :=
  [⟨4, [.word "sh:property", .word "["]⟩, about 8 "sh:path" (.iri property.iri)] ++
    datatypeLines graph property.datatype ++
    (if 0 < property.minCount then [about 8 "sh:minCount" (.word (toString property.minCount))] else []) ++
    (property.maxCount?.toList.map fun count => about 8 "sh:maxCount" (.word (toString count))) ++
    comment 8 property.description? ++
    [⟨8, [.word "sh:name", .literal property.name]⟩, ⟨4, [.word "]", .word ";"]⟩]

/-- The node shape of a class, behind an empty line. -/
def shapeLines (graph : SchemaGraph) (shape : Shape) : List TurtleLine :=
  [⟨0, []⟩, ⟨0, [.iri shape.iri, .word "a", .word "sh:NodeShape", .word ";"]⟩,
    about 4 "sh:targetClass" (.iri shape.iri)] ++ comment 4 shape.description? ++
    shape.properties.flatMap (propertyLines graph) ++
    [⟨4, [.word "sh:closed", .word "true", .word "."]⟩]

/-- The prefixes of a graph, apart from those of the vocabularies. -/
def ownPrefixes (graph : SchemaGraph) : List (String × String) :=
  graph.prefixes.filter fun (name, _) => (vocabularies.lookup name).isNone

end Turtle

namespace SchemaGraph

/-- The lines of the graph in Turtle. -/
def turtleLines (graph : SchemaGraph) : List TurtleLine :=
  ((Turtle.vocabularies ++ Turtle.ownPrefixes graph).map fun (name, uri) => Turtle.declaration name uri) ++
    graph.shapes.values.flatMap (Turtle.shapeLines graph)

/-- The graph in Turtle. -/
def toTurtle (graph : SchemaGraph) : String :=
  String.ofList (graph.turtleLines.flatMap TurtleLine.chars)

end SchemaGraph

end ClassSchema
