import Mathlib.Data.List.Forall2
import ClassSchema.Proofs.Digits
import ClassSchema.Proofs.DotTokens
import ClassSchema.Proofs.GraphLayouts

/-! # Texts in DOT show their graphs

A graph in DOT has its labels between quotes, written as they are. So what is read depends on the names: a text shows
its layout, one statement for each node and each link with their labels, exactly if every label is read as it stands.
One direction follows the text as it is written, piece by piece. The other one goes from the labels to the text: they
are read, so they keep their backslashes; then the whole text does, and nothing that is read from it has a quote.
-/

namespace ClassSchema

/-- The label of a node. -/
def GraphNode.label : GraphNode → String
  | .ofClass name => name
  | .ofDatatype datatype => datatype.text

/-- The shape that a node is drawn in. -/
def GraphNode.shape : GraphNode → String
  | .ofClass _ => "box"
  | .ofDatatype _ => "ellipse"

namespace Dot

/-- The label that attributes give: the last one counts. -/
def label? (attributes : List (String × String)) : Option String :=
  attributes.reverse.lookup "label"

/-- The nodes of statements, with their labels. -/
def nodeLabels (statements : List DotStatement) : List (String × Option String) :=
  statements.filterMap fun
    | .node id attributes => some (id, label? attributes)
    | _ => none

/-- The edges of statements, with their labels. -/
def edgeLabels (statements : List DotStatement) : List (String × String × Option String) :=
  statements.filterMap fun
    | .edge source target attributes => some (source, target, label? attributes)
    | _ => none

/-- Whether a text is read as the nodes and the links of a layout, each of them stated once and with its label. -/
def Shows (text : String) (layout : GraphLayout) : Prop :=
  ∃ tokens statements, ReadsAs text.toList tokens ∧ graph? tokens = some statements ∧
    nodeLabels statements = layout.nodes.mapIdx (fun index node => (s!"n{index}", some node.label)) ∧
    edgeLabels statements = layout.links.map fun link => (s!"n{link.source}", s!"n{link.target}", some link.label)

/-- The texts that a layout shows. -/
def labels (layout : GraphLayout) : List String :=
  layout.nodes.map GraphNode.label ++ layout.links.map GraphLink.label

variable {layout : GraphLayout} {holds : String → Prop}

theorem holds_of_label? {attributes : List (String × String)} {label : String}
    (each : ∀ attr ∈ attributes, holds attr.2) (found : label? attributes = some label) : holds label := by
  obtain ⟨before, behind, same, _⟩ := List.lookup_eq_some_iff.mp found
  have member : ("label", label) ∈ attributes := by
    rw [← List.mem_reverse, same]
    simp
  exact each _ member

/-- What holds of the values of all attributes holds of the labels. -/
theorem holds_of_mem_labels {statements : List DotStatement}
    (nodes : nodeLabels statements = layout.nodes.mapIdx (fun index node => (s!"n{index}", some node.label)))
    (edges : edgeLabels statements =
      layout.links.map fun link => (s!"n{link.source}", s!"n{link.target}", some link.label))
    (each : ∀ statement ∈ statements, ∀ attr ∈ statement.attributes, holds attr.2) :
    ∀ label ∈ labels layout, holds label := by
  intro label member
  rcases List.mem_append.mp member with isNode | isLink
  · obtain ⟨node, inLayout, rfl⟩ := List.mem_map.mp isNode
    obtain ⟨index, inside, rfl⟩ := List.getElem_of_mem inLayout
    have stated : (s!"n{index}", some layout.nodes[index].label) ∈ nodeLabels statements := by
      rw [nodes]
      exact List.mem_mapIdx.mpr ⟨index, inside, rfl⟩
    obtain ⟨statement, isStatement, found⟩ := List.mem_filterMap.mp stated
    cases statement with
    | node id attributes =>
      simp only [Option.some.injEq, Prod.mk.injEq] at found
      exact holds_of_label? (each _ isStatement) found.2
    | _ => cases found
  · obtain ⟨link, inLayout, rfl⟩ := List.mem_map.mp isLink
    have stated : (s!"n{link.source}", s!"n{link.target}", some link.label) ∈ edgeLabels statements := by
      rw [edges]
      exact List.mem_map_of_mem inLayout
    obtain ⟨statement, isStatement, found⟩ := List.mem_filterMap.mp stated
    cases statement with
    | edge source target attributes =>
      simp only [Option.some.injEq, Prod.mk.injEq] at found
      exact holds_of_label? (each _ isStatement) found.2.2
    | _ => cases found

theorem dotStatement_eq (index : Nat) (node : GraphNode) :
    node.dotStatement index = s!"  n{index} [label=\"{node.label}\", shape={node.shape}];\n" := by
  cases node <;> simp [GraphNode.dotStatement, GraphNode.label, GraphNode.shape, String.append_assoc] <;> rfl

/-- What stands in front of the nodes. -/
def header : String :=
  "digraph SchemaGraph \x7b\n  rankdir=LR;\n  node [fontname=\"Helvetica\", fontsize=10];\n\n"

theorem toDot_eq (graph : SchemaGraph) :
    graph.toDot = header ++ String.join (graph.layout.nodes.mapIdx GraphNode.dotStatement) ++ "\n" ++
      String.join (graph.layout.links.map GraphLink.dotStatement) ++ "\x7d\n" := rfl

/-- Whether a text keeps its backslashes. -/
def IsKept (text : String) : Prop :=
  keepsBackslashes text.toList = true

theorem IsKept.append {left right : String} (first : IsKept left) (second : IsKept right) : IsKept (left ++ right) := by
  rw [IsKept, String.toList_append, keepsBackslashes_append first]
  exact second

theorem IsKept.join {texts : List String} (each : ∀ text ∈ texts, IsKept text) : IsKept (String.join texts) := by
  induction texts with
  | nil => rfl
  | cons first rest ih =>
    obtain ⟨here, later⟩ := List.forall_mem_cons.mp each
    rw [String.join_cons]
    exact here.append (ih later)

theorem isKept_number (index : Nat) : IsKept (toString index) := by
  refine keepsBackslashes_of_not_mem fun member => ?_
  rw [Nat.toString_eq_repr, Nat.toList_repr] at member
  exact absurd (List.all_eq_true.mp (isDigit_toDigits index) '\\' member) (by decide)

theorem isKept_toDot {graph : SchemaGraph} (each : ∀ label ∈ labels graph.layout, IsKept label) :
    IsKept graph.toDot := by
  obtain ⟨nodes, links⟩ := List.forall_mem_append.mp each
  have node (text : String) (member : text ∈ graph.layout.nodes.mapIdx GraphNode.dotStatement) : IsKept text := by
    obtain ⟨index, inside, rfl⟩ := List.mem_mapIdx.mp member
    have label := nodes _ (List.mem_map_of_mem (List.getElem_mem inside))
    have shape : IsKept graph.layout.nodes[index].shape := by
      unfold IsKept GraphNode.shape
      split <;> rfl
    rw [dotStatement_eq]
    exact .append (.append (.append (.append (.append (.append rfl (isKept_number _)) rfl) label) rfl) shape) rfl
  have link (text : String) (member : text ∈ graph.layout.links.map GraphLink.dotStatement) : IsKept text := by
    obtain ⟨link, isLink, rfl⟩ := List.mem_map.mp member
    have label := links _ (List.mem_map_of_mem isLink)
    exact .append (.append (.append (.append (.append (.append rfl (isKept_number _)) rfl) (isKept_number _)) rfl)
      label) rfl
  exact .append (.append (.append (.append rfl (.join node)) rfl) (.join link)) rfl

/-- If a graph is read with all its labels, every label is read as it stands. -/
theorem isVerbatim_of_shows {graph : SchemaGraph} (shows : Shows graph.toDot graph.layout) :
    ∀ label ∈ labels graph.layout, isVerbatim label = true := by
  obtain ⟨tokens, statements, reads, read, nodes, edges⟩ := shows
  obtain ⟨areKept, noQuotes⟩ := keepsBackslashes_of_readsAs reads
  -- Backslashes come first: only when all labels are known to keep theirs does the whole text.
  have kept : ∀ label ∈ labels graph.layout, IsKept label :=
    holds_of_mem_labels nodes edges (holds_of_graph? (fun _ _ => IsKept.append) areKept read)
  have append (left right : String) (first : '"' ∉ left.toList) (second : '"' ∉ right.toList) :
      '"' ∉ (left ++ right).toList := by
    rw [String.toList_append, List.mem_append]
    exact not_or.mpr ⟨first, second⟩
  have noQuote : ∀ label ∈ labels graph.layout, '"' ∉ label.toList :=
    holds_of_mem_labels nodes edges (holds_of_graph? append (noQuotes (isKept_toDot kept)) read)
  intro label member
  have isKept : keepsBackslashes label.toList = true := kept label member
  simp [isVerbatim, isKept, noQuote label member]

theorem toList_number (index : Nat) : (s!"n{index}").toList = 'n' :: Nat.toDigits 10 index := by
  rw [String.toList_append, Nat.toString_eq_repr, Nat.toList_repr]
  rfl

theorem readToken?_number (index : Nat) (rest : List Char) :
    readToken? ((s!"n{index}").toList ++ ' ' :: rest) = some (.name s!"n{index}", ' ' :: rest) := by
  have areDigits : ∀ c ∈ Nat.toDigits 10 index, isNameChar c = true := by
    intro c member
    simp [isNameChar, Char.isAlphanum, List.all_eq_true.mp (isDigit_toDigits index) c member]
  have first (cs : List Char) : readToken? ('n' :: cs) =
      some (.name (String.ofList ('n' :: cs.takeWhile isNameChar)), cs.dropWhile isNameChar) := rfl
  rw [toList_number, List.cons_append, first, List.takeWhile_append_of_pos areDigits,
    List.dropWhile_append_of_pos areDigits, List.takeWhile_cons_of_neg (by decide),
    List.dropWhile_cons_of_neg (by decide), List.append_nil, ← toList_number, String.ofList_toList]

theorem readToken?_label {label : String} (verbatim : isVerbatim label = true) (rest : List Char) :
    readToken? ('"' :: (label.toList ++ '"' :: rest)) = some (.quoted label, rest) := by
  simp only [isVerbatim, Bool.and_eq_true, Bool.not_eq_true', List.contains_eq_mem, decide_eq_false_iff_not] at verbatim
  simp only [readToken?, readQuoted?_append verbatim.1 verbatim.2, Option.map_some, String.ofList_toList]

theorem readToken?_shape (node : GraphNode) (rest : List Char) :
    readToken? (node.shape.toList ++ ']' :: rest) = some (.name node.shape, ']' :: rest) := by
  unfold GraphNode.shape
  split <;> rfl

/-- The tokens of the statement for a node. -/
def nodeTokens (index : Nat) (node : GraphNode) : List DotToken :=
  [.name s!"n{index}", .mark '[', .name "label", .mark '=', .quoted node.label, .mark ',', .name "shape", .mark '=',
    .name node.shape, .mark ']', .mark ';']

/-- The tokens of the statement for a link. -/
def linkTokens (link : GraphLink) : List DotToken :=
  [.name s!"n{link.source}", .arrow, .name s!"n{link.target}", .mark '[', .name "label", .mark '=',
    .quoted link.label, .mark ']', .mark ';']

/-- Whether a text is read as tokens, whatever it stands in front of. -/
def Reads (text : String) (tokens : List DotToken) : Prop :=
  ∀ rest others, ReadsAs rest others → ReadsAs (text.toList ++ rest) (tokens ++ others)

theorem Reads.append {left right : String} {first second : List DotToken} (leftReads : Reads left first)
    (rightReads : Reads right second) : Reads (left ++ right) (first ++ second) := by
  intro rest others behind
  rw [String.toList_append, List.append_assoc, List.append_assoc]
  exact leftReads _ _ (rightReads _ _ behind)

theorem reads_join {α : Type} {write : α → String} {tokens : α → List DotToken} {items : List α}
    (each : ∀ item ∈ items, Reads (write item) (tokens item)) :
    Reads (String.join (items.map write)) (items.flatMap tokens) := by
  induction items with
  | nil => exact fun _ _ behind => behind
  | cons first rest ih =>
    obtain ⟨here, later⟩ := List.forall_mem_cons.mp each
    rw [List.map_cons, String.join_cons, List.flatMap_cons]
    exact here.append (ih later)

theorem reads_node {node : GraphNode} (verbatim : isVerbatim node.label = true) (index : Nat) :
    Reads (node.dotStatement index) (nodeTokens index node) := by
  intro rest others behind
  have text : (node.dotStatement index).toList ++ rest = ' ' :: ' ' :: ((s!"n{index}").toList ++ ' ' :: '[' ::
      ("label=".toList ++ '"' :: (node.label.toList ++ '"' :: (", shape=".toList ++ (node.shape.toList ++
        ("];\n".toList ++ rest)))))) := by
    simp only [dotStatement_eq, String.toList_append, List.append_assoc]
    rfl
  rw [text]
  exact .space rfl <| .space rfl <| .token (readToken?_number _ _) <| .space rfl <| .token rfl <|
    .token rfl <| .token rfl <| .token (readToken?_label verbatim _) <| .token rfl <| .space rfl <|
    .token rfl <| .token rfl <| .token (readToken?_shape node _) <| .token rfl <| .token rfl <| .space rfl behind

theorem reads_link {link : GraphLink} (verbatim : isVerbatim link.label = true) :
    Reads link.dotStatement (linkTokens link) := by
  intro rest others behind
  have text : link.dotStatement.toList ++ rest = ' ' :: ' ' :: ((s!"n{link.source}").toList ++ ' ' :: '-' :: '>' ::
      ' ' :: ((s!"n{link.target}").toList ++ ' ' :: '[' :: ("label=".toList ++ '"' :: (link.label.toList ++
        '"' :: ("];\n".toList ++ rest))))) := by
    simp only [GraphLink.dotStatement, String.toList_append, List.append_assoc]
    rfl
  rw [text]
  exact .space rfl <| .space rfl <| .token (readToken?_number _ _) <| .space rfl <| .token rfl <|
    .space rfl <| .token (readToken?_number _ _) <| .space rfl <| .token rfl <| .token rfl <| .token rfl <|
    .token (readToken?_label verbatim _) <| .token rfl <| .token rfl <| .space rfl behind

/-- The tokens of the assignment that draws from left to right. -/
def directionTokens : List DotToken :=
  [.name "rankdir", .mark '=', .name "LR", .mark ';']

/-- The tokens of the statement that gives all nodes their font. -/
def fontTokens : List DotToken :=
  [.name "node", .mark '[', .name "fontname", .mark '=', .quoted "Helvetica", .mark ',', .name "fontsize", .mark '=',
    .name "10", .mark ']', .mark ';']

/-- The tokens of what stands in front of the nodes. -/
def headerTokens : List DotToken :=
  .name "digraph" :: .name "SchemaGraph" :: .mark '\x7b' :: (directionTokens ++ fontTokens)

theorem reads_header : Reads header headerTokens := by
  intro rest others behind
  -- Every step is a blank or a token, and which one it is can be computed.
  repeat first
    | exact behind
    | refine .space rfl ?_
    | refine .token rfl ?_

/-- The tokens of a layout. -/
def layoutTokens (layout : GraphLayout) : List DotToken :=
  headerTokens ++ layout.nodes.zipIdx.flatMap (fun node => nodeTokens node.2 node.1) ++ [] ++
    layout.links.flatMap linkTokens ++ [.mark '\x7d']

theorem readsAs_toDot {graph : SchemaGraph} (verbatim : ∀ label ∈ labels graph.layout, isVerbatim label = true) :
    ReadsAs graph.toDot.toList (layoutTokens graph.layout) := by
  obtain ⟨nodes, links⟩ := List.forall_mem_append.mp verbatim
  have readsNodes : Reads (String.join (graph.layout.nodes.mapIdx GraphNode.dotStatement))
      (graph.layout.nodes.zipIdx.flatMap fun node => nodeTokens node.2 node.1) := by
    rw [List.mapIdx_eq_zipIdx_map]
    refine reads_join fun node member => reads_node (nodes _ (List.mem_map_of_mem ?_)) node.2
    exact List.fst_mem_of_mem_zipIdx member
  have readsLinks := reads_join fun link member => reads_link (links _ (List.mem_map_of_mem member))
  have lineBreak : Reads "\n" [] := fun _ _ behind => .space rfl behind
  have all := ((reads_header.append readsNodes).append lineBreak).append readsLinks
  rw [toDot_eq, String.toList_append]
  exact all _ _ (.token rfl (.space rfl .done))

theorem keyword?_number (index : Nat) : (DotToken.name s!"n{index}").keyword? = none := by
  refine if_neg fun member => ?_
  obtain ⟨d, isDigit, inside⟩ : ∃ d : Char, d.isDigit = true ∧ d ∈ Nat.toDigits 10 index := by
    obtain ⟨d, rest, digits⟩ := List.exists_cons_of_ne_nil (Nat.toDigits_ne_nil (b := 10) (n := index))
    have first : d ∈ Nat.toDigits 10 index := digits ▸ List.mem_cons_self
    exact ⟨d, List.all_eq_true.mp (isDigit_toDigits index) d first, first⟩
  have same : d.toLower = d := by
    simp only [Char.isDigit, Bool.and_eq_true, decide_eq_true_eq] at isDigit
    exact dif_neg fun upper => absurd (UInt32.le_trans upper.1 isDigit.2) (by decide)
  have inLower : d ∈ (s!"n{index}").toLower.toList := by
    have lowered : (s!"n{index}").toLower.toList = (s!"n{index}").toList.map Char.toLower := String.toList_map
    rw [lowered, toList_number]
    exact List.mem_map.mpr ⟨d, .tail _ inside, same⟩
  have noDigits : ["graph", "node", "edge", "digraph", "subgraph", "strict"].all
      (fun keyword => keyword.toList.all (!Char.isDigit ·)) = true := by decide +kernel
  have strange := List.all_eq_true.mp (List.all_eq_true.mp noDigits _ (List.contains_iff_mem.mp member)) d inLower
  simp [isDigit] at strange

/-- The statement for a node. -/
def nodeStatement (index : Nat) (node : GraphNode) : DotStatement :=
  .node s!"n{index}" [("label", node.label), ("shape", node.shape)]

/-- The statement for a link. -/
def linkStatement (link : GraphLink) : DotStatement :=
  .edge s!"n{link.source}" s!"n{link.target}" [("label", link.label)]

/-- Whether tokens are those of a statement, whatever statements follow. -/
def States (tokens : List DotToken) (statement : DotStatement) : Prop :=
  ∀ rest others, statements? rest = some others → statements? (tokens ++ rest) = some (statement :: others)

theorem id?_number (index : Nat) : (DotToken.name s!"n{index}").id? = some s!"n{index}" := by
  rw [DotToken.id?, keyword?_number]
  rfl

theorem id?_label : (DotToken.name "label").id? = some "label" := by
  decide +kernel

theorem states_node (index : Nat) (node : GraphNode) : States (nodeTokens index node) (nodeStatement index node) := by
  intro rest others behind
  have shape : (DotToken.name "shape").id? = some "shape" := by decide +kernel
  have value : (DotToken.name node.shape).id? = some node.shape := by
    unfold GraphNode.shape
    split <;> decide +kernel
  have ofLabel : (DotToken.quoted node.label).id? = some node.label := rfl
  have declared (attributes : List (String × String)) :
      declaration? (.name s!"n{index}") attributes = some (.node s!"n{index}" attributes) := by
    rw [declaration?, keyword?_number]
    rfl
  unfold nodeTokens nodeStatement
  generalize s!"n{index}" = id at declared
  simp [statements?, attributes?, behind, id?_label, shape, value, ofLabel, declared]

theorem states_link (link : GraphLink) : States (linkTokens link) (linkStatement link) := by
  intro rest others behind
  have ofLabel : (DotToken.quoted link.label).id? = some link.label := rfl
  have source := id?_number link.source
  have target := id?_number link.target
  unfold linkTokens linkStatement
  generalize s!"n{link.source}" = sourceId at source
  generalize s!"n{link.target}" = targetId at target
  simp [statements?, attributes?, behind, id?_label, ofLabel, source, target]

theorem states_flatMap {α : Type} {tokens : α → List DotToken} {statement : α → DotStatement} (items : List α)
    (each : ∀ item ∈ items, States (tokens item) (statement item)) {rest : List DotToken}
    {others : List DotStatement} (behind : statements? rest = some others) :
    statements? (items.flatMap tokens ++ rest) = some (items.map statement ++ others) := by
  induction items with
  | nil => exact behind
  | cons first items ih =>
    obtain ⟨here, later⟩ := List.forall_mem_cons.mp each
    rw [List.flatMap_cons, List.append_assoc]
    exact here _ _ (ih later)

/-- The statements of a layout. -/
def layoutStatements (layout : GraphLayout) : List DotStatement :=
  [.assignment "rankdir" "LR", .defaults "node" [("fontname", "Helvetica"), ("fontsize", "10")]] ++
    (layout.nodes.zipIdx.map (fun node => nodeStatement node.2 node.1) ++ layout.links.map linkStatement)

/-- Tokens without a plus sign are not put together. -/
theorem foldr_joinToken_of_not_mem {tokens : List DotToken} (noPlus : .mark '+' ∉ tokens) :
    tokens.foldr joinToken [] = tokens := by
  induction tokens with
  | nil => rfl
  | cons first rest ih =>
    obtain ⟨_, later⟩ := not_or.mp (mt List.mem_cons.mpr noPlus)
    rw [List.foldr_cons, ih later]
    unfold joinToken
    split
    · exact absurd List.mem_cons_self later
    · rfl

theorem states_direction : States directionTokens (.assignment "rankdir" "LR") := by
  intro rest others behind
  have name : (DotToken.name "rankdir").id? = some "rankdir" := by decide +kernel
  have value : (DotToken.name "LR").id? = some "LR" := by decide +kernel
  simp [directionTokens, statements?, behind, name, value]

theorem states_font : States fontTokens (.defaults "node" [("fontname", "Helvetica"), ("fontsize", "10")]) := by
  intro rest others behind
  have keyword : (DotToken.name "node").keyword? = some "node" := by decide +kernel
  have font : (DotToken.name "fontname").id? = some "fontname" := by decide +kernel
  have size : (DotToken.name "fontsize").id? = some "fontsize" := by decide +kernel
  have ten : (DotToken.name "10").id? = some "10" := by decide +kernel
  have helvetica : (DotToken.quoted "Helvetica").id? = some "Helvetica" := rfl
  simp [fontTokens, statements?, attributes?, behind, declaration?, keyword, font, size, ten, helvetica]

theorem graph?_layoutTokens (layout : GraphLayout) :
    graph? (layoutTokens layout) = some (layoutStatements layout) := by
  have noPlus : .mark '+' ∉ layoutTokens layout := by
    simp [layoutTokens, headerTokens, directionTokens, fontTokens, nodeTokens, linkTokens]
  have keyword : (DotToken.name "digraph").keyword? = some "digraph" := by decide +kernel
  have name : (DotToken.name "SchemaGraph").id?.isSome = true := by decide +kernel
  have links : statements? (layout.links.flatMap linkTokens ++ [.mark '\x7d']) =
      some (layout.links.map linkStatement ++ []) := states_flatMap _ (fun link _ => states_link link) rfl
  have nodes := states_flatMap layout.nodes.zipIdx (fun node _ => states_node node.2 node.1) links
  have body := states_direction _ _ (states_font _ _ nodes)
  rw [List.append_nil] at body
  unfold graph?
  rw [foldr_joinToken_of_not_mem noPlus]
  simp only [layoutTokens, headerTokens, List.cons_append, List.append_assoc, List.nil_append, keyword, name, and_self,
    if_true]
  exact body

theorem nodeLabels_layoutStatements (layout : GraphLayout) : nodeLabels (layoutStatements layout) =
    layout.nodes.mapIdx fun index node => (s!"n{index}", some node.label) := by
  have label (node : GraphNode) : label? [("label", node.label), ("shape", node.shape)] = some node.label := rfl
  simp [nodeLabels, layoutStatements, List.filterMap_map, List.mapIdx_eq_zipIdx_map, nodeStatement, linkStatement,
    label, Function.comp_def]

theorem edgeLabels_layoutStatements (layout : GraphLayout) : edgeLabels (layoutStatements layout) =
    layout.links.map fun link => (s!"n{link.source}", s!"n{link.target}", some link.label) := by
  simp [edgeLabels, layoutStatements, List.filterMap_map, nodeStatement, linkStatement, label?, Function.comp_def]

/-- A graph is read with all its labels exactly if every label is read as it stands. -/
theorem shows_toDot_iff (graph : SchemaGraph) :
    Shows graph.toDot graph.layout ↔ ∀ label ∈ labels graph.layout, isVerbatim label = true :=
  ⟨isVerbatim_of_shows, fun verbatim => ⟨_, _, readsAs_toDot verbatim, graph?_layoutTokens graph.layout,
    nodeLabels_layoutStatements graph.layout, edgeLabels_layoutStatements graph.layout⟩⟩

end Dot

section Documents

variable {document : Document} {graph : SchemaGraph}

theorem Dot.isVerbatim_text (kind : ScalarKind) : isVerbatim (Datatype.ofRange (.scalar kind)).text = true := by
  cases kind <;> rfl

variable (generated : SchemaGraph.ofDocument document = .ok graph)
include generated

/-- The links of a graph are labelled with the names of attributes. -/
theorem SchemaGraph.forall_mem_links_iff (holds : String → Prop) :
    (∀ link ∈ graph.layout.links, holds link.label) ↔ ∀ pair ∈ document.inducedPairs, holds pair.2.name := by
  obtain ⟨_, _, draws⟩ := draws_of_ofDocument generated
  have same : List.Forall₂ (fun pair (link : GraphLink) => link.label = pair.2.name) document.inducedPairs
      graph.layout.links :=
    forall₂_compose draws graph.shows_layout.links.flip fun drawn joins => joins.label.trans drawn.label
  constructor
  · intro each pair isPair
    obtain ⟨link, isLink, label⟩ := exists_of_mem_forall₂ same.flip isPair
    exact label ▸ each link isLink
  · intro each link isLink
    obtain ⟨pair, isPair, label⟩ := exists_of_mem_forall₂ same isLink
    exact label ▸ each pair isPair

/-- The text of a document's graph is read as one statement for each node and one for each edge, with their labels,
exactly if the names of the classes and of their attributes, inherited ones included, are read between quotes as they
stand: no quote is in them, and every backslash stands in front of a character of its own. -/
theorem SchemaGraph.shows_toDot_iff_isVerbatim :
    Dot.Shows graph.toDot graph.layout ↔ (∀ name ∈ document.classes.keys, Dot.isVerbatim name = true) ∧
      ∀ pair ∈ document.inducedPairs, Dot.isVerbatim pair.2.name = true := by
  rw [Dot.shows_toDot_iff, Dot.labels, List.forall_mem_append, List.forall_mem_map, List.forall_mem_map,
    forall_mem_links_iff generated fun label => Dot.isVerbatim label = true]
  refine and_congr_left fun _ => ?_
  constructor
  · intro nodes name isClass
    exact nodes (.ofClass name) ((mem_nodes_iff generated _).mpr (.inl ⟨name, isClass, rfl⟩))
  · intro classes node isNode
    rcases (mem_nodes_iff generated node).mp isNode with ⟨name, isClass, rfl⟩ | ⟨_, _, kind, _, rfl⟩
    · exact classes name isClass
    · exact Dot.isVerbatim_text kind

end Documents

/-- A document with a line break in the name of a class and a backslash in that of an attribute. -/
def Document.folders : Document :=
  { blank with
    id := "https://example.org/s"
    name := "s"
    defaultRange? := some "string"
    classes := [("Drive\nC", ⟨"Drive\nC", none, none, none,
      [⟨"C:\\temp", "string", false, false, false, none, none⟩]⟩)] }

/-- Line breaks, and backslashes within a name, do no harm. -/
theorem SchemaGraph.shows_toDot_folders : ∃ graph, ofDocument .folders = .ok graph ∧
    graph.layout.nodes = [.ofClass "Drive\nC", .ofDatatype .string] ∧
    graph.layout.links = [⟨0, 1, "C:\\temp"⟩] ∧ Dot.Shows graph.toDot graph.layout := by
  have computed : ((ofDocument .folders).toOption.map fun graph => (graph.layout.nodes, graph.layout.links)) =
      some ([.ofClass "Drive\nC", .ofDatatype .string], [⟨0, 1, "C:\\temp"⟩]) := by decide +kernel
  have verbatim : (∀ name ∈ Document.folders.classes.keys, Dot.isVerbatim name = true) ∧
      ∀ pair ∈ Document.folders.inducedPairs, Dot.isVerbatim pair.2.name = true := by decide +kernel
  cases generated : ofDocument .folders with
  | error error => simp [generated, Except.toOption] at computed
  | ok graph =>
    simp only [generated, Except.toOption, Option.map_some, Option.some.injEq, Prod.mk.injEq] at computed
    exact ⟨graph, rfl, computed.1, computed.2, (shows_toDot_iff_isVerbatim generated).mpr verbatim⟩

/-- A schema with a class whose name ends its label and opens another statement. -/
def Document.injectedText : String :=
  "id: https://example.org/s\nname: s\nclasses:\n  \"A\\\", shape=box];\\n  n1 [label=\\\"B\":\n"

/-- The name of that class. -/
def Document.injectedName : String :=
  "A\", shape=box];\n  n1 [label=\"B"

/-- The document of that schema. -/
def Document.injected : Document :=
  { blank with
    id := "https://example.org/s"
    name := "s"
    classes := [(injectedName, ⟨injectedName, none, none, none, []⟩)] }

/-- The graph of classes without attributes. -/
def SchemaGraph.bare (names : List String) : SchemaGraph where
  id := "https://example.org/s"
  namespaceUri := "https://example.org/s/"
  prefixes := []
  shapes := names.map fun name => (name, ⟨name, escapeIri ("https://example.org/s/" ++ name), none, []⟩)

/-- The one class of that schema is read as two nodes, and its own label is not read. -/
theorem SchemaGraph.not_shows_toDot_injected :
    Document.parse Document.injectedText = .ok .injected ∧
      ofDocument .injected = .ok (bare [Document.injectedName]) ∧
      (bare [Document.injectedName]).layout.nodes.length = 1 ∧
      (∃ tokens statements, Dot.ReadsAs (bare [Document.injectedName]).toDot.toList tokens ∧
        Dot.graph? tokens = some statements ∧
        Dot.nodeLabels statements = [("n0", some "A"), ("n1", some "B")]) ∧
      ¬ Dot.Shows (bare [Document.injectedName]).toDot (bare [Document.injectedName]).layout := by
  have parsed : Document.parse Document.injectedText = .ok .injected := by decide +kernel
  have generated : ofDocument .injected = .ok (bare [Document.injectedName]) := by decide +kernel
  have sameText : (bare [Document.injectedName]).toDot = (bare ["A", "B"]).toDot := by rfl
  have verbatim : ∀ label ∈ Dot.labels (bare ["A", "B"]).layout, Dot.isVerbatim label = true := by decide +kernel
  have reads := Dot.readsAs_toDot verbatim
  refine ⟨parsed, generated, by decide +kernel, ⟨_, _, sameText ▸ reads, Dot.graph?_layoutTokens _, ?_⟩, ?_⟩
  · rw [Dot.nodeLabels_layoutStatements]
    decide +kernel
  · rw [Dot.shows_toDot_iff]
    decide +kernel

end ClassSchema
