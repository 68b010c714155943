import ClassSchema.Proofs.Artifacts
import ClassSchema.Proofs.TurtleTokens

/-! # Graphs with the same Turtle

What a graph states of its shapes and their properties can be told from its text in Turtle: two graphs of
documents with the same text have the same shapes in the same order, each with the same IRI, description and
properties. The text is read as the tokens of its lines; each shape and each property shape starts with a token
that nothing else starts with, and what may be left out of them stands behind a verb of its own.
-/

namespace ClassSchema

/-- What a property shape states. -/
structure PropertyStatement where
  path : String
  /-- The IRI of the datatype; resources have none. -/
  datatype? : Option String
  /-- The IRI of the class that the values are instances of, if they are instances of one. -/
  target? : Option (Option String)
  minCount : Nat
  maxCount? : Option Nat
  description? : Option String
  name : String
deriving DecidableEq, Repr

/-- What a node shape states. -/
structure ShapeStatement where
  iri : String
  description? : Option String
  properties : List PropertyStatement
deriving DecidableEq, Repr

/-- What a graph states of a property. -/
def ShapeProperty.statement (graph : SchemaGraph) (property : ShapeProperty) : PropertyStatement where
  path := property.iri
  datatype? := property.datatype.iri?
  target? := property.datatype.className?.map fun name => (graph.shape? name).map Shape.iri
  minCount := property.minCount
  maxCount? := property.maxCount?
  description? := property.description?
  name := property.name

/-- What a graph states of a shape. -/
def Shape.statement (graph : SchemaGraph) (shape : Shape) : ShapeStatement :=
  ⟨shape.iri, shape.description?, shape.properties.map (ShapeProperty.statement graph)⟩

/-- What a graph states, shape by shape. -/
def SchemaGraph.statements (graph : SchemaGraph) : List ShapeStatement :=
  graph.shapes.values.map (Shape.statement graph)

/-- The tokens that the text of a graph is read as. -/
def SchemaGraph.turtleTokens (graph : SchemaGraph) : List TurtleToken :=
  Turtle.tokensOf graph.turtleLines

namespace Turtle

/-- Whether a character counts as a letter: those of ASCII, and everything from the first letter beyond it. -/
def isLetter (c : Char) : Bool :=
  c.isAlpha || 0xc0 ≤ c.toNat

/-- Whether a character may stand in the name of a prefix. -/
def isNameChar (c : Char) : Bool :=
  isLetter c || c.isDigit || c == '_' || c == '-'

/-- Whether a name may be that of a prefix: a letter, and then letters, digits, `_` and `-`. -/
def IsPrefixName (name : String) : Prop :=
  ∃ first rest, name.toList = first :: rest ∧ isLetter first = true ∧ rest.all isNameChar = true

section Writing

theorem isWordChar_of_isNameChar {c : Char} (named : isNameChar c = true) : isWordChar c = true := by
  simp only [isWordChar, isSpace, Bool.and_eq_true, Bool.not_eq_true', Bool.or_eq_false_iff, beq_eq_false_iff_ne,
    bne_iff_ne]
  refine ⟨⟨⟨⟨⟨?_, ?_⟩, ?_⟩, ?_⟩, ?_⟩, ?_⟩ <;> (rintro rfl; exact absurd named (by decide))

theorem isWord_toString (n : Nat) : isWord (toString n) = true := by
  rw [isWord, Nat.toString_eq_repr, Nat.toList_repr, Bool.and_eq_true, List.all_eq_true]
  refine ⟨by simp [Nat.toDigits_ne_nil], fun c member => isWordChar_of_isNameChar ?_⟩
  simp [isNameChar, Nat.isDigit_of_mem_toDigits (by decide) (by decide) member]

theorem isWord_prefixName {name : String} (legal : IsPrefixName name) : isWord (name ++ ":") = true := by
  obtain ⟨first, rest, chars, isFirst, each⟩ := legal
  have start : isWordChar first = true := isWordChar_of_isNameChar (by simp [isNameChar, isFirst])
  have behind : ∀ c ∈ rest, isWordChar c = true := fun c member =>
    isWordChar_of_isNameChar (List.all_eq_true.mp each c member)
  have all : (first :: rest).all isWordChar = true := by
    rw [List.all_cons, start, List.all_eq_true.mpr behind, Bool.and_self]
  rw [isWord, String.toList_append, chars, List.all_append, all]
  rfl

theorem areLexical_append {lines others : List TurtleLine} :
    areLexical (lines ++ others) = true ↔ areLexical lines = true ∧ areLexical others = true := by
  rw [areLexical, List.all_append, Bool.and_eq_true]
  rfl

theorem areLexical_flatMap {α : Type} {write : α → List TurtleLine} {items : List α}
    (each : ∀ item ∈ items, areLexical (write item) = true) : areLexical (items.flatMap write) = true := by
  rw [areLexical, List.all_flatMap, List.all_eq_true]
  exact each

theorem areLexical_about {indentation : Nat} {verb : String} {object : TurtleToken} (isVerb : isWord verb = true)
    (lexical : object.isLexical = true) : areLexical [about indentation verb object] = true := by
  have verbs : (TurtleToken.word verb).isLexical = true := isVerb
  have ends : (TurtleToken.word ";").isLexical = true := by decide
  simp [areLexical, about, verbs, lexical, ends]

theorem areLexical_map_about {α : Type} {indentation : Nat} {verb : String} {object : α → TurtleToken}
    {value? : Option α} (isVerb : isWord verb = true) (lexical : ∀ value, (object value).isLexical = true) :
    areLexical (value?.toList.map fun value => about indentation verb (object value)) = true := by
  cases value? with
  | none => rfl
  | some value => exact areLexical_about isVerb (lexical value)

theorem areLexical_comment (indentation : Nat) (description? : Option String) :
    areLexical (comment indentation description?) = true :=
  areLexical_map_about (by decide) fun _ => rfl

theorem areLexical_datatypeLines (graph : SchemaGraph) (datatype : Datatype) :
    areLexical (datatypeLines graph datatype) = true := by
  cases datatype with
  | resource className? =>
    rw [datatypeLines, Datatype.xsdName?, ← List.singleton_append, areLexical_append]
    exact ⟨areLexical_about (by decide) (by decide), areLexical_map_about (by decide) fun _ => rfl⟩
  | _ => exact areLexical_about (by decide) (by decide)

theorem areLexical_propertyLines (graph : SchemaGraph) (property : ShapeProperty) :
    areLexical (propertyLines graph property) = true := by
  have least : areLexical (if 0 < property.minCount then
      [about 8 "sh:minCount" (.word (toString property.minCount))] else []) = true := by
    split
    · exact areLexical_about (by decide) (isWord_toString _)
    · rfl
  have most : areLexical (property.maxCount?.toList.map fun count =>
      about 8 "sh:maxCount" (.word (toString count))) = true :=
    areLexical_map_about (by decide) isWord_toString
  simp only [propertyLines, areLexical_append]
  exact ⟨⟨⟨⟨⟨rfl, areLexical_datatypeLines graph _⟩, least⟩, most⟩, areLexical_comment 8 _⟩, rfl⟩

theorem areLexical_shapeLines (graph : SchemaGraph) (shape : Shape) :
    areLexical (shapeLines graph shape) = true := by
  simp only [shapeLines, areLexical_append]
  have properties := areLexical_flatMap fun property (_ : property ∈ shape.properties) =>
    areLexical_propertyLines graph property
  exact ⟨⟨⟨rfl, areLexical_comment 4 _⟩, properties⟩, by decide⟩

theorem areLexical_turtleLines {graph : SchemaGraph} (legal : ∀ name ∈ graph.prefixes.keys, IsPrefixName name) :
    areLexical graph.turtleLines = true := by
  have declared : ∀ entry ∈ vocabularies ++ ownPrefixes graph, IsPrefixName entry.1 := by
    intro entry member
    rcases List.mem_append.mp member with known | own
    · simp only [vocabularies, List.mem_cons, List.not_mem_nil, or_false] at known
      rcases known with rfl | rfl | rfl <;> exact ⟨_, _, rfl, rfl, by decide⟩
    · exact legal _ (List.mem_map_of_mem (List.mem_of_mem_filter own))
  rw [SchemaGraph.turtleLines, areLexical_append]
  refine ⟨?_, areLexical_flatMap fun shape _ => areLexical_shapeLines graph shape⟩
  rw [areLexical, List.all_map, List.all_eq_true]
  intro entry member
  have isName := isWord_prefixName (declared entry member)
  have marks : isWord "@prefix" = true ∧ isWord "." = true := by decide
  simp [declaration, TurtleToken.isLexical, isName, marks]

end Writing

section Verbs

/-- The tokens of verbs with objects, some of which may be left out. -/
def partsTokens (parts : List (String × Option TurtleToken)) : List TurtleToken :=
  parts.flatMap fun part => part.2.toList.flatMap fun object => [.word part.1, object, .word ";"]

/-- Whether tokens do not start with a word. -/
def Avoids (word : String) (tokens : List TurtleToken) : Prop :=
  tokens.head? ≠ some (.word word)

theorem avoids_partsTokens_append {parts : List (String × Option TurtleToken)} {verb : String}
    (absent : verb ∉ parts.map Prod.fst) {rest : List TurtleToken} (avoids : Avoids verb rest) :
    Avoids verb (partsTokens parts ++ rest) := by
  induction parts with
  | nil => exact avoids
  | cons part parts ih =>
    obtain ⟨first, object?⟩ := part
    rw [List.map_cons, List.mem_cons, not_or] at absent
    cases object? with
    | none => exact ih absent.2
    | some object =>
      intro same
      obtain rfl : first = verb := by simpa [partsTokens] using same
      exact absent.1 rfl

/-- Different verbs tell which objects are left out. -/
theorem partsTokens_append_inj (verbs : List String) (distinct : verbs.Nodup)
    {left right : List (String × Option TurtleToken)} (isLeft : left.map Prod.fst = verbs)
    (isRight : right.map Prod.fst = verbs) {rest others : List TurtleToken}
    (avoids : ∀ verb ∈ verbs, Avoids verb rest ∧ Avoids verb others)
    (same : partsTokens left ++ rest = partsTokens right ++ others) : left = right ∧ rest = others := by
  induction verbs generalizing left right with
  | nil =>
    obtain rfl := List.map_eq_nil_iff.mp isLeft
    obtain rfl := List.map_eq_nil_iff.mp isRight
    exact ⟨rfl, same⟩
  | cons verb verbs ih =>
    obtain ⟨⟨_, first?⟩, left, rfl, rfl, restLeft⟩ := List.map_eq_cons_iff.mp isLeft
    obtain ⟨⟨_, second?⟩, right, rfl, sameVerb, restRight⟩ := List.map_eq_cons_iff.mp isRight
    cases sameVerb
    obtain ⟨fresh, distinct⟩ := List.nodup_cons.mp distinct
    obtain ⟨avoidsHere, avoidsThere⟩ := avoids _ List.mem_cons_self
    have behind := avoids_partsTokens_append (restLeft ▸ fresh) avoidsHere
    have behindOther := avoids_partsTokens_append (restRight ▸ fresh) avoidsThere
    have later := ih distinct restLeft restRight fun other member => avoids other (List.mem_cons_of_mem _ member)
    -- Where only one side has the object, the other side starts with the verb of a later part or with its rest.
    cases first? with
    | none =>
      cases second? with
      | none =>
        obtain ⟨rfl, sameRest⟩ := later same
        exact ⟨rfl, sameRest⟩
      | some object => exact absurd ((congrArg List.head? same).trans rfl) behind
    | some object =>
      cases second? with
      | none => exact absurd ((congrArg List.head? same.symm).trans rfl) behindOther
      | some other =>
        simp only [partsTokens, List.flatMap_cons, Option.toList_some, List.flatMap_nil, List.append_nil,
          List.cons_append, List.nil_append, List.cons.injEq, true_and] at same
        obtain ⟨rfl, same⟩ := same
        obtain ⟨rfl, sameRest⟩ := later same
        exact ⟨rfl, sameRest⟩

/-- Blocks that can be told from one another and from what follows them are the same one by one. -/
theorem forall₂_of_flatMap_append_eq {α β : Type} {write : α → List TurtleToken} {writeOther : β → List TurtleToken}
    (relates : α → β → Prop) {items : List α} {results : List β} {rest others : List TurtleToken}
    (each : ∀ item ∈ items, ∀ result ∈ results, ∀ {rest others},
      write item ++ rest = writeOther result ++ others → relates item result ∧ rest = others)
    (ends : ∀ result ∈ results, ∀ tail, rest ≠ writeOther result ++ tail)
    (endsOther : ∀ item ∈ items, ∀ tail, others ≠ write item ++ tail)
    (same : items.flatMap write ++ rest = results.flatMap writeOther ++ others) :
    List.Forall₂ relates items results ∧ rest = others := by
  induction items generalizing results with
  | nil =>
    cases results with
    | nil => exact ⟨.nil, same⟩
    | cons result results =>
      rw [List.flatMap_cons, List.append_assoc] at same
      exact absurd same (ends result List.mem_cons_self _)
  | cons item items ih =>
    cases results with
    | nil =>
      rw [List.flatMap_cons, List.append_assoc] at same
      exact absurd same.symm (endsOther item List.mem_cons_self _)
    | cons result results =>
      rw [List.flatMap_cons, List.flatMap_cons, List.append_assoc, List.append_assoc] at same
      obtain ⟨related, same⟩ := each item List.mem_cons_self result List.mem_cons_self same
      obtain ⟨others, sameRest⟩ := ih
        (fun item isItem result isResult => each item (List.mem_cons_of_mem _ isItem) result
          (List.mem_cons_of_mem _ isResult))
        (fun result member => ends result (List.mem_cons_of_mem _ member))
        (fun item member => endsOther item (List.mem_cons_of_mem _ member)) same
      exact ⟨.cons related others, sameRest⟩

end Verbs

section PropertyShapes

/-- The verbs of a property shape. -/
def propertyVerbs : List String :=
  ["sh:path", "sh:datatype", "sh:nodeKind", "sh:class", "sh:minCount", "sh:maxCount", "rdfs:comment"]

/-- The verbs of a property shape with their objects. -/
def propertyParts (graph : SchemaGraph) (property : ShapeProperty) : List (String × Option TurtleToken) :=
  [("sh:path", some (.iri (escapeIri property.iri))),
   ("sh:datatype", property.datatype.xsdName?.map fun name => .word ("xsd:" ++ name)),
   ("sh:nodeKind", if property.datatype.xsdName?.isSome then none else some (.word "sh:IRI")),
   ("sh:class", (property.datatype.className?.bind graph.shape?).map fun target => .iri (escapeIri target.iri)),
   ("sh:minCount", if 0 < property.minCount then some (.word (toString property.minCount)) else none),
   ("sh:maxCount", property.maxCount?.map fun count => .word (toString count)),
   ("rdfs:comment", property.description?.map .literal)]

/-- The tokens of a property shape. -/
def propertyTokens (graph : SchemaGraph) (property : ShapeProperty) : List TurtleToken :=
  [.word "sh:property", .word "["] ++ partsTokens (propertyParts graph property) ++
    [.word "sh:name", .literal property.name, .word "]", .word ";"]

/-- The verbs of a node shape. -/
def shapeVerbs : List String :=
  ["a", "sh:targetClass", "rdfs:comment"]

/-- The tokens of a node shape. -/
def shapeTokens (graph : SchemaGraph) (shape : Shape) : List TurtleToken :=
  .iri (escapeIri shape.iri) :: partsTokens
    [("a", some (.word "sh:NodeShape")), ("sh:targetClass", some (.iri (escapeIri shape.iri))),
     ("rdfs:comment", shape.description?.map .literal)] ++
    (shape.properties.flatMap (propertyTokens graph) ++ [.word "sh:closed", .word "true", .word "."])

theorem tokensOf_append (lines others : List TurtleLine) :
    tokensOf (lines ++ others) = tokensOf lines ++ tokensOf others :=
  List.flatMap_append

theorem tokensOf_comment (indentation : Nat) (description? : Option String) :
    tokensOf (comment indentation description?) =
      partsTokens [("rdfs:comment", description?.map .literal)] := by
  cases description? <;> rfl

theorem tokensOf_datatypeLines (graph : SchemaGraph) (datatype : Datatype) :
    tokensOf (datatypeLines graph datatype) = partsTokens
      [("sh:datatype", datatype.xsdName?.map fun name => .word ("xsd:" ++ name)),
       ("sh:nodeKind", if datatype.xsdName?.isSome then none else some (.word "sh:IRI")),
       ("sh:class", (datatype.className?.bind graph.shape?).map fun target => .iri (escapeIri target.iri))] := by
  cases datatype with
  | resource className? =>
    cases found : className?.bind graph.shape? <;>
      simp [datatypeLines, Datatype.xsdName?, Datatype.className?, found, tokensOf, partsTokens, about,
        TurtleToken.asRead]
  | _ => rfl

theorem tokensOf_propertyLines (graph : SchemaGraph) (property : ShapeProperty) :
    tokensOf (propertyLines graph property) = propertyTokens graph property := by
  have least : tokensOf (if 0 < property.minCount then
      [about 8 "sh:minCount" (.word (toString property.minCount))] else []) = partsTokens
        [("sh:minCount", if 0 < property.minCount then some (.word (toString property.minCount)) else none)] := by
    split <;> rfl
  have most : tokensOf (property.maxCount?.toList.map fun count =>
      about 8 "sh:maxCount" (.word (toString count))) = partsTokens
        [("sh:maxCount", property.maxCount?.map fun count => .word (toString count))] := by
    cases property.maxCount? <;> rfl
  simp only [propertyLines, tokensOf_append, tokensOf_comment, tokensOf_datatypeLines, least, most]
  simp [propertyTokens, propertyParts, partsTokens, tokensOf, about, TurtleToken.asRead]

theorem tokensOf_shapeLines (graph : SchemaGraph) (shape : Shape) :
    tokensOf (shapeLines graph shape) = shapeTokens graph shape := by
  have properties : tokensOf (shape.properties.flatMap (propertyLines graph)) =
      shape.properties.flatMap (propertyTokens graph) := by
    rw [tokensOf, List.flatMap_assoc]
    exact List.flatMap_congr fun property _ => tokensOf_propertyLines graph property
  simp only [shapeLines, tokensOf_append, tokensOf_comment, properties]
  simp [shapeTokens, partsTokens, tokensOf, about, TurtleToken.asRead]

end PropertyShapes

end Turtle

/-- Whether the IRI of a property is written as it is stored, and so is the IRI of the class it refers to, if it
refers to one. -/
structure ShapeProperty.IsWritable (graph : SchemaGraph) (property : ShapeProperty) : Prop where
  iri : escapeIri property.iri = property.iri
  target : ∀ name, property.datatype.className? = some name →
    ∃ shape, graph.shape? name = some shape ∧ escapeIri shape.iri = shape.iri

/-- Whether the IRIs of a shape and of its properties are written as they are stored. -/
structure Shape.IsWritable (graph : SchemaGraph) (shape : Shape) : Prop where
  iri : escapeIri shape.iri = shape.iri
  properties : ∀ property ∈ shape.properties, property.IsWritable graph

theorem Document.escapeIri_of_iri {document : Document} {namespaceUri name iri : String} {uri? : Option String}
    (success : document.iri namespaceUri uri? name = .ok iri) : escapeIri iri = iri := by
  cases uri? with
  | none =>
    cases success
    exact escapeIri_escapeIri _
  | some uri =>
    obtain ⟨expanded, _, rfl⟩ := map_eq_ok_iff.mp success
    exact escapeIri_escapeIri expanded

/-- The graph of a document is written as it is stored. -/
theorem SchemaGraph.isWritable_of_ofDocument {document : Document} {graph : SchemaGraph}
    (generated : ofDocument document = .ok graph) : ∀ shape ∈ graph.shapes.values, shape.IsWritable graph := by
  obtain ⟨resolver, resolves, namespaceUri, _, shapes, each, rfl⟩ := ofDocument_eq_ok_iff.mp generated
  have made : ∀ shape ∈ Table.values shapes, ∃ name definition,
      Shape.ofClass resolver namespaceUri name definition = .ok shape := by
    intro shape member
    obtain ⟨entry, stored, rfl⟩ := List.mem_map.mp member
    obtain ⟨_, _, shape, success, rfl⟩ := exists_of_mem_forall₂ each stored
    exact ⟨_, _, success⟩
  have iris : ∀ shape ∈ Table.values shapes, escapeIri shape.iri = shape.iri := by
    intro shape member
    obtain ⟨_, _, success⟩ := made shape member
    obtain ⟨iri, given, _, _, _, _, rfl⟩ := Shape.ofClass_eq_ok_iff.mp success
    exact Document.escapeIri_of_iri given
  have sameKeys : Table.keys document.classes = Table.keys shapes := by
    refine map_eq_map_of_forall₂ ?_ each
    rintro entry result ⟨shape, _, rfl⟩
    rfl
  have targets : ∀ name, resolver.document.classes.has name = true →
      ∃ shape, Table.get? shapes name = some shape ∧ escapeIri shape.iri = shape.iri := by
    intro name defined
    rw [RangeResolver.document_of_ofDocument resolves, Table.has_iff_mem_keys, sameKeys,
      ← Table.has_iff_mem_keys, Table.has] at defined
    obtain ⟨target, found⟩ := Option.isSome_iff_exists.mp defined
    exact ⟨target, found, iris target (Table.mem_values_of_get? found)⟩
  intro shape member
  refine ⟨iris shape member, ?_⟩
  obtain ⟨_, _, success⟩ := made shape member
  obtain ⟨_, _, resolved, resolvedClass, _, eachProperty, rfl⟩ := Shape.ofClass_eq_ok_iff.mp success
  intro property isProperty
  obtain ⟨attr, isAttribute, success⟩ := exists_of_mem_forall₂ eachProperty isProperty
  obtain ⟨iri, given, rfl⟩ := ShapeProperty.ofAttribute_eq_ok_iff.mp success
  refine ⟨Document.escapeIri_of_iri given, fun name refers => targets name ?_⟩
  rw [Datatype.className?_ofRange] at refers
  exact RangeResolver.has_of_resolveClass resolvedClass isAttribute (Range.className?_eq_some_iff.mp refers)

namespace Turtle

variable {graph otherGraph : SchemaGraph}

/-- The IRI of the class that a property refers to is told by what is written of it. -/
theorem target?_of_isWritable {property : ShapeProperty} (writable : property.IsWritable graph) :
    ∃ iri? : Option String, (property.statement graph).target? = iri?.map some ∧
      (property.datatype.className?.bind graph.shape?).map (fun target => TurtleToken.iri (escapeIri target.iri)) =
        iri?.map .iri := by
  cases refers : property.datatype.className? with
  | none => exact ⟨none, by simp [ShapeProperty.statement, refers], rfl⟩
  | some name =>
    obtain ⟨target, found, written⟩ := writable.target name refers
    exact ⟨some target.iri, by simp [ShapeProperty.statement, refers, found], by simp [found, written]⟩

theorem toString_inj {left right : Nat} (same : toString left = toString right) : left = right := by
  have sameValue := congrArg (fun text : String => decimalValue text.toList) same
  simpa only [Nat.toString_eq_repr, Nat.toList_repr, decimalValue_toDigits] using sameValue

theorem minCount_inj {left right : Nat}
    (same : (if 0 < left then some (TurtleToken.word (toString left)) else none) =
      if 0 < right then some (.word (toString right)) else none) : left = right := by
  split at same <;> split at same <;> simp only [Option.some.injEq, TurtleToken.word.injEq, reduceCtorEq] at same
  · exact toString_inj same
  · omega

/-- A property shape tells what it states, whatever follows it. -/
theorem statement_eq_of_propertyTokens {property other : ShapeProperty} (writable : property.IsWritable graph)
    (otherWritable : other.IsWritable otherGraph) {rest others : List TurtleToken}
    (same : propertyTokens graph property ++ rest = propertyTokens otherGraph other ++ others) :
    property.statement graph = other.statement otherGraph ∧ rest = others := by
  simp only [propertyTokens, List.append_assoc, List.cons_append, List.nil_append, List.cons.injEq,
    true_and] at same
  obtain ⟨sameParts, same⟩ := partsTokens_append_inj propertyVerbs (by decide) rfl rfl
    (by simp [propertyVerbs, Avoids]) same
  simp only [List.cons.injEq, TurtleToken.literal.injEq, true_and] at same
  obtain ⟨sameName, sameRest⟩ := same
  refine ⟨?_, sameRest⟩
  simp only [propertyParts, List.cons.injEq, Prod.mk.injEq, true_and, and_true, Option.some.injEq,
    TurtleToken.iri.injEq, writable.iri, otherWritable.iri] at sameParts
  obtain ⟨path, datatype, _, target, least, most, description⟩ := sameParts
  have sameDatatype : property.datatype.xsdName? = other.datatype.xsdName? :=
    Option.map_injective (fun first second same => by simpa using same) datatype
  have sameMost : property.maxCount? = other.maxCount? :=
    Option.map_injective (fun first second same => toString_inj (by simpa using same)) most
  have sameDescription : property.description? = other.description? :=
    Option.map_injective (fun first second same => by simpa using same) description
  obtain ⟨iri?, isTarget, written⟩ := target?_of_isWritable writable
  obtain ⟨otherIri?, isOtherTarget, otherWritten⟩ := target?_of_isWritable otherWritable
  obtain rfl : iri? = otherIri? := Option.map_injective (fun first second same => by simpa using same)
    ((written.symm.trans target).trans otherWritten)
  have sameTarget := isTarget.trans isOtherTarget.symm
  simp only [ShapeProperty.statement] at sameTarget ⊢
  rw [sameTarget, path, Datatype.iri?, Datatype.iri?, sameDatatype, minCount_inj least, sameMost, sameDescription,
    sameName]

section NodeShapes

/-- The verbs of a node shape are neither those of its property shapes nor the one at its end. -/
theorem avoids_properties_append (graph : SchemaGraph) (properties : List ShapeProperty) (rest : List TurtleToken) :
    ∀ verb ∈ shapeVerbs, Avoids verb (properties.flatMap (propertyTokens graph) ++ .word "sh:closed" :: rest) := by
  cases properties with
  | nil => simp [shapeVerbs, Avoids]
  | cons property properties => simp [shapeVerbs, Avoids, propertyTokens]

/-- A node shape tells what it states, whatever follows it. -/
theorem statement_eq_of_shapeTokens {shape other : Shape} (writable : shape.IsWritable graph)
    (otherWritable : other.IsWritable otherGraph) {rest others : List TurtleToken}
    (same : shapeTokens graph shape ++ rest = shapeTokens otherGraph other ++ others) :
    shape.statement graph = other.statement otherGraph ∧ rest = others := by
  simp only [shapeTokens, List.append_assoc, List.cons_append, List.cons.injEq, TurtleToken.iri.injEq,
    writable.iri, otherWritable.iri] at same
  obtain ⟨sameIri, same⟩ := same
  obtain ⟨sameParts, same⟩ := partsTokens_append_inj shapeVerbs (by decide) rfl rfl
    (fun verb member => ⟨avoids_properties_append _ _ _ verb member, avoids_properties_append _ _ _ verb member⟩)
    same
  obtain ⟨sameProperties, same⟩ := forall₂_of_flatMap_append_eq
    (fun property other => property.statement graph = other.statement otherGraph)
    (fun property member other isOther _ _ same => statement_eq_of_propertyTokens
      (writable.properties property member) (otherWritable.properties other isOther) same)
    (by simp [propertyTokens]) (by simp [propertyTokens]) same
  have sameDescription : shape.description? = other.description? := by
    simp only [List.cons.injEq, Prod.mk.injEq, true_and, and_true] at sameParts
    exact Option.map_injective (fun first second same => by simpa using same) sameParts.2
  refine ⟨?_, by simpa using same⟩
  rw [Shape.statement, Shape.statement, sameIri, sameDescription,
    map_eq_map_of_forall₂ (fun _ _ same => same) sameProperties]

end NodeShapes

section Graphs

/-- The tokens that declare a prefix. -/
def declarationTokens (entry : String × String) : List TurtleToken :=
  [.word "@prefix", .word (entry.1 ++ ":"), .iri (escapeIri entry.2), .word "."]

theorem turtleTokens_eq (graph : SchemaGraph) :
    graph.turtleTokens = (vocabularies ++ ownPrefixes graph).flatMap declarationTokens ++
      graph.shapes.values.flatMap (shapeTokens graph) := by
  rw [SchemaGraph.turtleTokens, SchemaGraph.turtleLines, tokensOf_append, tokensOf, tokensOf, List.flatMap_map,
    List.flatMap_assoc]
  exact congrArg _ (List.flatMap_congr fun shape _ => tokensOf_shapeLines graph shape)

/-- The tokens of a graph tell what the graph states. -/
theorem statements_eq_of_turtleTokens (writable : ∀ shape ∈ graph.shapes.values, shape.IsWritable graph)
    (otherWritable : ∀ shape ∈ otherGraph.shapes.values, shape.IsWritable otherGraph)
    (same : graph.turtleTokens = otherGraph.turtleTokens) : graph.statements = otherGraph.statements := by
  have startsNew (graph : SchemaGraph) (entry : String × String) (tail : List TurtleToken) :
      graph.shapes.values.flatMap (shapeTokens graph) ≠ declarationTokens entry ++ tail := by
    cases graph.shapes.values with
    | nil => exact nofun
    | cons shape shapes => exact nofun
  rw [turtleTokens_eq, turtleTokens_eq] at same
  obtain ⟨_, sameShapes⟩ := forall₂_of_flatMap_append_eq (fun _ _ => True)
    (fun _ _ _ _ _ _ same => by simpa [declarationTokens] using (List.append_inj same rfl).2)
    (fun entry _ => startsNew graph entry) (fun entry _ => startsNew otherGraph entry) same
  rw [← List.append_nil (List.flatMap _ _), ← List.append_nil (List.flatMap (shapeTokens otherGraph) _)] at sameShapes
  obtain ⟨each, _⟩ := forall₂_of_flatMap_append_eq
    (fun shape other => shape.statement graph = other.statement otherGraph)
    (fun shape member other isOther _ _ same =>
      statement_eq_of_shapeTokens (writable shape member) (otherWritable other isOther) same)
    (by simp [shapeTokens]) (by simp [shapeTokens]) sameShapes
  exact map_eq_map_of_forall₂ (fun _ _ same => same) each

end Graphs

end Turtle

namespace SchemaGraph

theorem readsAs_toTurtle {graph : SchemaGraph} (legal : ∀ name ∈ graph.prefixes.keys, Turtle.IsPrefixName name) :
    Turtle.ReadsAs graph.toTurtle.toList graph.turtleTokens := by
  rw [toTurtle, String.toList_ofList]
  exact Turtle.readsAs_of_areLexical (Turtle.areLexical_turtleLines legal)

/-- No IRI that is read holds a blank, a control of ASCII or a delimiter. -/
theorem isIriChar_of_mem_turtleTokens {graph : SchemaGraph} {iri : String}
    (member : TurtleToken.iri iri ∈ graph.turtleTokens) :
    ∀ c ∈ iri.toList, Turtle.isIriChar c = true ∧ c ≠ '\x7f' := by
  obtain ⟨line, _, inLine⟩ := List.mem_flatMap.mp member
  obtain ⟨token, _, isIri⟩ := List.mem_map.mp inLine
  cases token with
  | iri text =>
    obtain rfl : escapeIri text = iri := by simpa [TurtleToken.asRead] using isIri
    exact fun c member => isRefusedInIri_eq_false_iff.mp (not_isRefusedInIri_of_mem_escapeIri member)
  | literal text => cases isIri
  | word text => cases isIri

theorem prefixes_of_ofDocument {document : Document} {graph : SchemaGraph}
    (generated : ofDocument document = .ok graph) : graph.prefixes = document.prefixes := by
  obtain ⟨_, _, _, _, _, _, rfl⟩ := ofDocument_eq_ok_iff.mp generated
  rfl

/-- The text of a graph is read as its tokens, whose IRIs hold nothing that could end them and are the stored ones,
and graphs with the same text state the same of the same shapes. -/
theorem readsAs_and_statements_eq_of_toTurtle {document : Document} {graph : SchemaGraph}
    (generated : ofDocument document = .ok graph)
    (legal : ∀ name ∈ document.prefixes.keys, Turtle.IsPrefixName name) :
    Turtle.ReadsAs graph.toTurtle.toList graph.turtleTokens ∧
      (∀ iri, TurtleToken.iri iri ∈ graph.turtleTokens →
        ∀ c ∈ iri.toList, Turtle.isIriChar c = true ∧ c ≠ '\x7f') ∧
      (∀ shape ∈ graph.shapes.values, escapeIri shape.iri = shape.iri ∧
        ∀ property ∈ shape.properties, escapeIri property.iri = property.iri) ∧
      ∀ other otherGraph, ofDocument other = .ok otherGraph →
        (∀ name ∈ other.prefixes.keys, Turtle.IsPrefixName name) → graph.toTurtle = otherGraph.toTurtle →
        graph.statements = otherGraph.statements := by
  have writable := isWritable_of_ofDocument generated
  have reads : Turtle.ReadsAs graph.toTurtle.toList graph.turtleTokens :=
    readsAs_toTurtle (prefixes_of_ofDocument generated ▸ legal)
  refine ⟨reads, fun _ => isIriChar_of_mem_turtleTokens, ?_, ?_⟩
  · intro shape member
    exact ⟨(writable shape member).iri, fun property isProperty =>
      ((writable shape member).properties property isProperty).iri⟩
  · intro other otherGraph otherGenerated otherLegal same
    have otherReads := readsAs_toTurtle (prefixes_of_ofDocument otherGenerated ▸ otherLegal)
    exact Turtle.statements_eq_of_turtleTokens writable (isWritable_of_ofDocument otherGenerated)
      (reads.unique (same ▸ otherReads))

end SchemaGraph

/-- A document with a class that refers to itself. -/
def Document.town (id : String) : Document :=
  { blank with
    id := id
    name := "towns"
    prefixes := [("geo-1", "https://e.org/a b#")]
    classes := [("Town", ⟨"Town", some "A \"town\"\n", none, some "geo-1:Town",
      [⟨"twin", "Town", true, false, false, none, none⟩, ⟨"name", "string", false, true, false, none, none⟩]⟩)] }

/-- The graph of that document. -/
def SchemaGraph.town (id : String) : SchemaGraph where
  id := id
  namespaceUri := "https://e.org/t/"
  prefixes := [("geo-1", "https://e.org/a b#")]
  shapes := [("Town", ⟨"Town", "https://e.org/a%20b#Town", some "A \"town\"\n",
    [⟨"twin", "https://e.org/t/twin", .resource (some "Town"), 0, none, none⟩,
     ⟨"name", "https://e.org/t/name", .string, 1, some 1, none⟩]⟩)]

/-- Two schemas with different ids but the same namespace have the same text. -/
theorem SchemaGraph.readsAs_and_statements_eq_of_toTurtle_town :
    ofDocument (.town "https://e.org/t") = .ok (town "https://e.org/t") ∧
      ofDocument (.town "https://e.org/t/") = .ok (town "https://e.org/t/") ∧
      (town "https://e.org/t").toTurtle = (town "https://e.org/t/").toTurtle ∧
      Turtle.ReadsAs (town "https://e.org/t").toTurtle.toList (town "https://e.org/t").turtleTokens ∧
      (town "https://e.org/t").statements = (town "https://e.org/t/").statements := by
  have generated : ofDocument (.town "https://e.org/t") = .ok (town "https://e.org/t") := by decide +kernel
  have otherGenerated : ofDocument (.town "https://e.org/t/") = .ok (town "https://e.org/t/") := by decide +kernel
  have isName : Turtle.IsPrefixName "geo-1" := ⟨_, _, rfl, by decide, by decide⟩
  have legal (id : String) : ∀ name ∈ (Document.town id).prefixes.keys, Turtle.IsPrefixName name := by
    intro name member
    rwa [List.mem_singleton.mp member]
  have same : (town "https://e.org/t").toTurtle = (town "https://e.org/t/").toTurtle := by rfl
  obtain ⟨reads, _, _, determined⟩ := readsAs_and_statements_eq_of_toTurtle generated (legal _)
  exact ⟨generated, otherGenerated, same, reads, determined _ _ otherGenerated (legal _) same⟩

/-- Whether a character is a control, beyond ASCII too. -/
def Turtle.isControl (c : Char) : Bool :=
  c.toNat < 0x20 || (0x7f ≤ c.toNat && c.toNat < 0xa0)

/-- A schema with a class whose name holds a control beyond ASCII. -/
def Document.controlText : String :=
  "id: https://example.org/s\nname: s\nclasses:\n  \"A\\x80B\":\n"

/-- The document of that schema. -/
def Document.controlled : Document :=
  { blank with
    id := "https://example.org/s"
    name := "s"
    classes := [("A\x80B", ⟨"A\x80B", none, none, none, []⟩)] }

/-- The graph of that document. -/
def SchemaGraph.controlled : SchemaGraph where
  id := "https://example.org/s"
  namespaceUri := "https://example.org/s/"
  prefixes := []
  shapes := [("A\x80B", ⟨"A\x80B", "https://example.org/s/A\x80B", none, []⟩)]

/-- A control beyond ASCII stays in an IRI as it is. -/
theorem SchemaGraph.exists_isControl_of_mem_turtleTokens :
    Document.parse Document.controlText = .ok .controlled ∧ ofDocument .controlled = .ok controlled ∧
      (∀ name ∈ Document.controlled.prefixes.keys, Turtle.IsPrefixName name) ∧
      ∃ iri, TurtleToken.iri iri ∈ controlled.turtleTokens ∧ ∃ c ∈ iri.toList, Turtle.isControl c = true := by
  have parsed : Document.parse Document.controlText = .ok .controlled := by decide +kernel
  have generated : ofDocument .controlled = .ok controlled := by decide +kernel
  exact ⟨parsed, generated, nofun, "https://example.org/s/A\x80B", by decide +kernel, '\x80', by decide, by decide⟩

end ClassSchema
