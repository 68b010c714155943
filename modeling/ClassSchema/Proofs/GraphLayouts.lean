import Mathlib.Data.List.Forall2
import ClassSchema.Graph.Layout
import ClassSchema.Proofs.CycleAnalysis

/-! # Layouts mirror shapes

A layout numbers each node once, and its links join the ends of the edges, one link for one edge. So the layout of
a document's graph has a node for each class and each datatype in use, and a link for each attribute of a class,
inherited ones included. The classes that links from a class lead to are those that its attributes have for ranges,
and a link leads from one class to another exactly if it comes to the other from the one.
-/

namespace ClassSchema

theorem nodup_concat {α : Type} {items : List α} {item : α} (distinct : items.Nodup) (fresh : item ∉ items) :
    (items ++ [item]).Nodup := by
  rw [← List.concat_eq_append]
  exact distinct.concat fresh

theorem foldl_firsts_spec {α : Type} [DecidableEq α] (items firsts : List α) (distinct : firsts.Nodup) :
    (items.foldl (fun firsts item => if item ∈ firsts then firsts else firsts ++ [item]) firsts).Nodup ∧
      ∀ item, item ∈ items.foldl (fun firsts item => if item ∈ firsts then firsts else firsts ++ [item]) firsts ↔
        item ∈ firsts ∨ item ∈ items := by
  induction items generalizing firsts with
  | nil => exact ⟨distinct, by simp⟩
  | cons first rest ih =>
    rw [List.foldl_cons]
    split
    · rename_i known
      obtain ⟨nodup, members⟩ := ih firsts distinct
      refine ⟨nodup, fun item => ?_⟩
      rw [members, List.mem_cons]
      constructor
      · tauto
      · rintro (old | rfl | later) <;> tauto
    · rename_i fresh
      obtain ⟨nodup, members⟩ := ih (firsts ++ [first]) (nodup_concat distinct fresh)
      refine ⟨nodup, fun item => ?_⟩
      rw [members, List.mem_append, List.mem_singleton, List.mem_cons, or_assoc]

theorem mem_sortedNames_iff {names : List String} {name : String} : name ∈ sortedNames names ↔ name ∈ names := by
  rw [sortedNames, (List.mergeSort_perm _ _).mem_iff, firstOccurrences, (foldl_firsts_spec names [] .nil).2]
  simp

/-- Sorted names ascend, and no name is repeated. -/
theorem pairwise_sortedNames (names : List String) : (sortedNames names).Pairwise (· < ·) := by
  have distinct : (sortedNames names).Nodup :=
    (List.mergeSort_perm _ _).nodup_iff.mpr (foldl_firsts_spec names [] .nil).1
  have isOrder (left right : String) : (!decide (right < left)) = true ↔ left ≤ right := by
    rw [Bool.not_eq_true', decide_eq_false_iff_not, String.not_lt]
  have ascending : (sortedNames names).Pairwise (· ≤ ·) := by
    refine (List.pairwise_mergeSort ?_ ?_ _).imp (fun ordered => (isOrder _ _).mp ordered)
    · intro first second third
      simp only [isOrder]
      exact String.le_trans
    · intro left right
      rw [Bool.or_eq_true, isOrder, isOrder]
      exact String.le_total _ _
  refine (ascending.and distinct).imp ?_
  rintro left right ⟨before, differ⟩
  exact Decidable.by_contra fun notBefore => differ (String.le_antisymm before (String.not_lt.mp notBefore))

namespace GraphLayout

variable {layout next : GraphLayout} {node : GraphNode} {index : Nat}

/-- A node that is numbered stands in its place. -/
theorem getElem?_of_idxOf? {nodes : List GraphNode} (found : nodes.idxOf? node = some index) :
    nodes[index]? = some node := by
  obtain ⟨inside, isNode, _⟩ := List.idxOf?_eq_some_iff.mp found
  rw [List.getElem?_eq_getElem inside, isNode]

theorem getElem?_of_kept {nodes others : List GraphNode} (kept : nodes <+: others)
    (place : nodes[index]? = some node) : others[index]? = some node := by
  obtain ⟨behind, rfl⟩ := kept
  rw [List.getElem?_append_left (List.getElem?_eq_some_iff.mp place).1, place]

/-- What it is to number a node: the nodes stay where they are, the node has its place, and it is the only one that
may be new. -/
structure Interns (layout : GraphLayout) (node : GraphNode) (next : GraphLayout) (index : Nat) : Prop where
  kept : layout.nodes <+: next.nodes
  links : next.links = layout.links
  place : next.nodes[index]? = some node
  distinct : layout.nodes.Nodup → next.nodes.Nodup
  mem_iff : ∀ other, other ∈ next.nodes ↔ other ∈ layout.nodes ∨ other = node

theorem interns_intern (layout : GraphLayout) (node : GraphNode) :
    layout.Interns node (layout.intern node).1 (layout.intern node).2 := by
  unfold intern
  split
  · rename_i index found
    have place := getElem?_of_idxOf? found
    refine ⟨List.prefix_refl _, rfl, place, id, fun other => ⟨.inl, ?_⟩⟩
    rintro (old | rfl)
    · exact old
    · exact List.mem_of_getElem? place
  · rename_i missing
    have fresh : node ∉ layout.nodes := List.idxOf?_eq_none_iff.mp missing
    exact ⟨List.prefix_append _ _, rfl, by simp, fun distinct => nodup_concat distinct fresh, by simp⟩

/-- Whether a link joins the ends of an edge, among numbered nodes. -/
structure Joins (nodes : List GraphNode) (link : GraphLink) (edge : GraphEdge) : Prop where
  source : nodes[link.source]? = some edge.source
  target : nodes[link.target]? = some edge.target
  label : link.label = edge.label

theorem Joins.mono {nodes others : List GraphNode} {link : GraphLink} {edge : GraphEdge}
    (joins : Joins nodes link edge) (kept : nodes <+: others) : Joins others link edge :=
  ⟨getElem?_of_kept kept joins.source, getElem?_of_kept kept joins.target, joins.label⟩

/-- Whether a layout shows nodes and edges: it has the nodes and the ends of the edges, each of them once, and a link
for each edge, in their order. -/
structure Shows (layout : GraphLayout) (nodes : List GraphNode) (edges : List GraphEdge) : Prop where
  distinct : layout.nodes.Nodup
  mem_iff : ∀ node, node ∈ layout.nodes ↔ node ∈ nodes ∨ ∃ edge ∈ edges, node = edge.source ∨ node = edge.target
  links : List.Forall₂ (Joins layout.nodes) layout.links edges

theorem shows_empty : Shows ⟨[], []⟩ [] [] :=
  ⟨.nil, by simp, .nil⟩

/-- Numbering a node adds it to what is shown. -/
theorem Shows.addNode {nodes : List GraphNode} (shows : layout.Shows nodes []) (node : GraphNode) :
    (layout.addNode node).Shows (nodes ++ [node]) [] := by
  have interns := layout.interns_intern node
  refine ⟨interns.distinct shows.distinct, fun other => ?_, ?_⟩
  · rw [GraphLayout.addNode, interns.mem_iff, shows.mem_iff]
    simp
  · rw [GraphLayout.addNode, interns.links, List.forall₂_nil_right_iff.mp shows.links]
    exact .nil

/-- Laying an edge adds it to what is shown. -/
theorem Shows.addEdge {nodes : List GraphNode} {edges : List GraphEdge} (shows : layout.Shows nodes edges)
    (edge : GraphEdge) : (layout.addEdge edge).Shows nodes (edges ++ [edge]) := by
  have first := layout.interns_intern edge.source
  have second := (layout.intern edge.source).1.interns_intern edge.target
  have kept := first.kept.trans second.kept
  refine ⟨second.distinct (first.distinct shows.distinct), fun other => ?_, ?_⟩
  · simp only [GraphLayout.addEdge, second.mem_iff, first.mem_iff, shows.mem_iff, List.mem_append,
      List.mem_singleton, or_and_right, exists_or, exists_eq_left, or_assoc]
  · have old := shows.links.imp fun _ _ joins => joins.mono kept
    have new : Joins ((layout.intern edge.source).1.intern edge.target).1.nodes
        ⟨(layout.intern edge.source).2, ((layout.intern edge.source).1.intern edge.target).2, edge.label⟩ edge :=
      ⟨getElem?_of_kept second.kept first.place, second.place, rfl⟩
    simp only [GraphLayout.addEdge, second.links, first.links]
    exact List.rel_append old (.cons new .nil)

/-- Numbering nodes one after the other adds them all. -/
theorem Shows.addNodes {nodes : List GraphNode} (shows : layout.Shows nodes []) (others : List GraphNode) :
    (others.foldl GraphLayout.addNode layout).Shows (nodes ++ others) [] := by
  induction others generalizing layout nodes with
  | nil => rwa [List.append_nil]
  | cons node rest ih =>
    rw [List.append_cons]
    exact ih (shows.addNode node)

/-- Laying edges one after the other adds them all. -/
theorem Shows.addEdges {nodes : List GraphNode} {edges : List GraphEdge} (shows : layout.Shows nodes edges)
    (others : List GraphEdge) : (others.foldl GraphLayout.addEdge layout).Shows nodes (edges ++ others) := by
  induction others generalizing layout edges with
  | nil => rwa [List.append_nil]
  | cons edge rest ih =>
    rw [List.append_cons]
    exact ih (shows.addEdge edge)

/-- The neighbours of a class are the classes that links join it to. -/
theorem mem_neighbours_iff (distinct : layout.nodes.Nodup) {near far : GraphLink → Nat} {name target : String} :
    target ∈ layout.neighbours near far name ↔ ∃ link ∈ layout.links,
      layout.nodes[near link]? = some (.ofClass name) ∧ layout.nodes[far link]? = some (.ofClass target) := by
  have isTarget (index : Nat) :
      layout.className? index = some target ↔ layout.nodes[index]? = some (.ofClass target) := by
    unfold className?
    split
    · rename_i stored
      rw [stored]
      simp
    · rename_i noClass
      exact iff_of_false nofun fun stored => noClass target stored
  unfold neighbours
  split
  · rename_i missing
    refine iff_of_false List.not_mem_nil ?_
    rintro ⟨link, _, place, _⟩
    exact List.idxOf?_eq_none_iff.mp missing (List.mem_of_getElem? place)
  · rename_i index found
    have place := getElem?_of_idxOf? found
    have isNear (link : GraphLink) : (near link == index) = true ↔
        layout.nodes[near link]? = some (.ofClass name) := by
      rw [beq_iff_eq]
      constructor
      · rintro rfl
        exact place
      · intro stored
        have inside := (List.getElem?_eq_some_iff.mp stored).1
        exact (List.getElem?_inj inside distinct).mp (stored.trans place.symm)
    simp only [mem_sortedNames_iff, List.mem_filterMap, List.mem_filter, isNear, isTarget, and_assoc]

theorem pairwise_neighbours (layout : GraphLayout) (near far : GraphLink → Nat) (name : String) :
    (layout.neighbours near far name).Pairwise (· < ·) := by
  unfold neighbours
  split
  · exact .nil
  · exact pairwise_sortedNames _

/-- What a class is joined to at one end of links is joined to it at the other end. -/
theorem mem_neighbours_swap (distinct : layout.nodes.Nodup) (near far : GraphLink → Nat) (name target : String) :
    target ∈ layout.neighbours near far name ↔ name ∈ layout.neighbours far near target := by
  rw [mem_neighbours_iff distinct, mem_neighbours_iff distinct]
  simp only [and_comm]

end GraphLayout

namespace SchemaGraph

/-- The layout of a graph shows its classes and its edges. -/
theorem shows_layout (graph : SchemaGraph) :
    graph.layout.Shows (graph.shapes.keys.map .ofClass) graph.edges := by
  have classes := GraphLayout.shows_empty.addNodes (graph.shapes.keys.map .ofClass)
  rw [List.nil_append] at classes
  have all := classes.addEdges graph.edges
  rwa [List.nil_append] at all

/-- A class refers to those that an edge leads to from it. -/
theorem mem_referencesFrom_iff {graph : SchemaGraph} {name target : String} :
    target ∈ graph.referencesFrom name ↔
      ∃ edge ∈ graph.edges, edge.source = .ofClass name ∧ edge.target = .ofClass target := by
  have shows := graph.shows_layout
  rw [referencesFrom, GraphLayout.mem_neighbours_iff shows.distinct]
  constructor
  · rintro ⟨link, isLink, source, leads⟩
    obtain ⟨edge, isEdge, joins⟩ := exists_of_mem_forall₂ shows.links.flip isLink
    rw [joins.source, Option.some.injEq] at source
    rw [joins.target, Option.some.injEq] at leads
    exact ⟨edge, isEdge, source, leads⟩
  · rintro ⟨edge, isEdge, source, leads⟩
    obtain ⟨link, isLink, joins⟩ := exists_of_mem_forall₂ shows.links isEdge
    exact ⟨link, isLink, source ▸ joins.source, leads ▸ joins.target⟩

end SchemaGraph

section Attributes

variable {document : Document} {graph : SchemaGraph}

/-- The classes with each of their attributes, inherited ones included. -/
def Document.inducedPairs (document : Document) : List (String × Attribute) :=
  document.classes.keys.flatMap fun name =>
    ((document.inducedAttributes name).toOption.getD []).map fun attr => (name, attr)

/-- Whether an edge is that of an attribute of a class: it leads from the class to the node for the range of the
attribute, and has its name. -/
structure Document.Draws (document : Document) (pair : String × Attribute) (edge : GraphEdge) : Prop where
  source : edge.source = .ofClass pair.1
  label : edge.label = pair.2.name
  target : ∃ range, document.resolveRange pair.2 = .ok range ∧ edge.target = (Datatype.ofRange range).node

theorem RangeResolver.resolveRange_of_resolveAttribute {resolver : RangeResolver}
    (resolves : ofDocument document = .ok resolver) {owner : String} {attr : Attribute} {resolved : ResolvedAttribute}
    (success : resolver.resolveAttribute owner attr = .ok resolved) :
    resolved.attr = attr ∧ document.resolveRange attr = .ok resolved.range := by
  unfold resolveAttribute at success
  split at success
  · rename_i found
    cases success
    exact ⟨rfl, by rw [Document.resolveRange, resolves]; exact found⟩
  · cases success

/-- The range of an attribute of a document is a scalar kind or a class of the document. -/
theorem Document.mem_keys_of_resolveRange {attr : Attribute} {target : String}
    (range : document.resolveRange attr = .ok (.instanceOf target)) : target ∈ document.classes.keys := by
  obtain ⟨resolver, resolves, found⟩ := bind_eq_ok_iff.mp range
  rw [← Table.has_iff_mem_keys, ← RangeResolver.document_of_ofDocument resolves]
  unfold RangeResolver.resolve at found
  split at found
  · exact RangeResolver.has_of_lookup found
  · cases found

/-- What a graph has of a class: its induced attributes are there, and the shape has a property for each of them. -/
theorem Shape.draws_of_ofClass {resolver : RangeResolver} (resolves : RangeResolver.ofDocument document = .ok resolver)
    {namespaceUri name : String} {definition : ClassDefinition} {shape : Shape}
    (made : Shape.ofClass resolver namespaceUri name definition = .ok shape) :
    ∃ attributes, document.inducedAttributes name = .ok attributes ∧
      List.Forall₂ document.Draws (attributes.map fun attr => (name, attr))
        (shape.properties.map fun property => ⟨.ofClass shape.name, property.datatype.node, property.name⟩) := by
  obtain ⟨_, _, resolved, success, properties, each, rfl⟩ := Shape.ofClass_eq_ok_iff.mp made
  obtain ⟨attributes, induced, resolvedEach⟩ := RangeResolver.resolveClass_eq_ok success
  rw [RangeResolver.document_of_ofDocument resolves] at induced
  refine ⟨attributes, induced, ?_⟩
  rw [List.forall₂_map_left_iff, List.forall₂_map_right_iff]
  refine forall₂_compose resolvedEach each ?_
  intro attr result property resolvedOne propertyOne
  obtain ⟨rfl, range⟩ := RangeResolver.resolveRange_of_resolveAttribute resolves resolvedOne
  obtain ⟨_, _, rfl⟩ := ShapeProperty.ofAttribute_eq_ok_iff.mp propertyOne
  exact ⟨rfl, rfl, result.range, range, rfl⟩

variable (graphed : SchemaGraph.ofDocument document = .ok graph)
include graphed

/-- The shapes of a graph are those of the document's classes, whose attributes draw the edges. -/
theorem SchemaGraph.draws_of_ofDocument :
    document.classes.keys = graph.shapes.keys ∧
      (∀ name ∈ document.classes.keys, ∃ attributes, document.inducedAttributes name = .ok attributes) ∧
      List.Forall₂ document.Draws document.inducedPairs graph.edges := by
  obtain ⟨resolver, resolves, namespaceUri, _, shapes, each, rfl⟩ := ofDocument_eq_ok_iff.mp graphed
  refine ⟨?_, ?_, ?_⟩
  · refine map_eq_map_of_forall₂ ?_ each
    rintro _ _ ⟨_, _, rfl⟩
    rfl
  · intro name isClass
    obtain ⟨entry, isEntry, rfl⟩ := List.mem_map.mp isClass
    obtain ⟨_, _, shape, made, _⟩ := exists_of_mem_forall₂ each.flip isEntry
    obtain ⟨attributes, induced, _⟩ := Shape.draws_of_ofClass resolves made
    exact ⟨attributes, induced⟩
  · rw [Document.inducedPairs, edges, Table.keys, Table.values, List.flatMap_map, List.flatMap_map]
    refine List.rel_flatMap each ?_
    rintro entry _ ⟨shape, made, rfl⟩
    obtain ⟨attributes, induced, draws⟩ := Shape.draws_of_ofClass resolves made
    simp only [induced]
    exact draws

/-- The pairs of a graph's document are its classes with their induced attributes. -/
theorem Document.mem_inducedPairs_iff {name : String} {attr : Attribute} :
    (name, attr) ∈ document.inducedPairs ↔ name ∈ document.classes.keys ∧
      ∃ attributes, document.inducedAttributes name = .ok attributes ∧ attr ∈ attributes := by
  obtain ⟨_, induces, _⟩ := SchemaGraph.draws_of_ofDocument graphed
  simp only [inducedPairs, List.mem_flatMap, List.mem_map, Prod.mk.injEq]
  constructor
  · rintro ⟨name, isClass, attr, member, rfl, rfl⟩
    obtain ⟨attributes, induced⟩ := induces name isClass
    rw [induced] at member
    exact ⟨isClass, attributes, induced, member⟩
  · rintro ⟨isClass, attributes, induced, member⟩
    refine ⟨name, isClass, attr, ?_, rfl, rfl⟩
    rw [induced]
    exact member

/-- No pair is repeated. -/
theorem Document.nodup_inducedPairs (distinct : document.classes.keys.Nodup) : document.inducedPairs.Nodup := by
  obtain ⟨_, induces, _⟩ := SchemaGraph.draws_of_ofDocument graphed
  rw [inducedPairs, List.nodup_flatMap]
  refine ⟨fun name isClass => ?_, distinct.imp ?_⟩
  · obtain ⟨attributes, induced⟩ := induces name isClass
    rw [induced]
    refine List.Nodup.map (fun left right same => (Prod.mk.inj same).2) ?_
    exact List.Nodup.of_map _ (nodup_inducedAttributes induced)
  · intro left right differ pair inLeft inRight
    obtain ⟨_, _, rfl⟩ := List.mem_map.mp inLeft
    obtain ⟨_, _, same⟩ := List.mem_map.mp inRight
    exact differ (Prod.mk.inj same).1.symm

/-- Every node is a class or a datatype that is no class, and these are all nodes. -/
theorem SchemaGraph.mem_nodes_iff (node : GraphNode) : node ∈ graph.nodes ↔
    (∃ name ∈ document.classes.keys, node = .ofClass name) ∨
      ∃ pair ∈ document.inducedPairs, ∃ kind, document.resolveRange pair.2 = .ok (.scalar kind) ∧
        node = .ofDatatype (.ofRange (.scalar kind)) := by
  obtain ⟨keys, _, draws⟩ := draws_of_ofDocument graphed
  rw [nodes, graph.shows_layout.mem_iff, ← keys]
  have scalarNode (kind : ScalarKind) :
      (Datatype.ofRange (.scalar kind)).node = .ofDatatype (.ofRange (.scalar kind)) := by
    cases kind <;> rfl
  constructor
  · rintro (isClass | ⟨edge, isEdge, ends⟩)
    · obtain ⟨name, isKey, rfl⟩ := List.mem_map.mp isClass
      exact .inl ⟨name, isKey, rfl⟩
    · obtain ⟨⟨name, attr⟩, isPair, drawn⟩ := exists_of_mem_forall₂ draws isEdge
      obtain ⟨range, resolved, leads⟩ := drawn.target
      rcases ends with rfl | rfl
      · exact .inl ⟨name, ((Document.mem_inducedPairs_iff graphed).mp isPair).1, drawn.source⟩
      · cases range with
        | scalar kind => exact .inr ⟨_, isPair, kind, resolved, leads.trans (scalarNode kind)⟩
        | instanceOf target => exact .inl ⟨target, Document.mem_keys_of_resolveRange resolved, leads⟩
  · rintro (⟨name, isClass, rfl⟩ | ⟨pair, isPair, kind, resolved, rfl⟩)
    · exact .inl (List.mem_map_of_mem isClass)
    · obtain ⟨edge, isEdge, drawn⟩ := exists_of_mem_forall₂ draws.flip isPair
      obtain ⟨range, again, leads⟩ := drawn.target
      obtain rfl := Except.ok.inj (again.symm.trans resolved)
      exact .inr ⟨edge, isEdge, .inr (leads.trans (scalarNode kind)).symm⟩

/-- A class refers to another one exactly if one of its attributes has that range. -/
theorem SchemaGraph.mem_referencesFrom_iff_range (name target : String) : target ∈ graph.referencesFrom name ↔
    ∃ attr, (name, attr) ∈ document.inducedPairs ∧ document.resolveRange attr = .ok (.instanceOf target) := by
  obtain ⟨_, _, draws⟩ := draws_of_ofDocument graphed
  rw [mem_referencesFrom_iff]
  constructor
  · rintro ⟨edge, isEdge, source, leads⟩
    obtain ⟨⟨other, attr⟩, isPair, drawn⟩ := exists_of_mem_forall₂ draws isEdge
    obtain ⟨range, resolved, isNode⟩ := drawn.target
    obtain rfl : other = name := GraphNode.ofClass.inj (drawn.source.symm.trans source)
    have refers := Datatype.node_eq_ofClass_iff.mp (isNode.symm.trans leads)
    rw [Datatype.className?_ofRange, Range.className?_eq_some_iff] at refers
    exact ⟨attr, isPair, refers ▸ resolved⟩
  · rintro ⟨attr, isPair, resolved⟩
    obtain ⟨edge, isEdge, drawn⟩ := exists_of_mem_forall₂ draws.flip isPair
    obtain ⟨range, again, leads⟩ := drawn.target
    obtain rfl := Except.ok.inj (again.symm.trans resolved)
    exact ⟨edge, isEdge, drawn.source, leads⟩

end Attributes

/-- Whether a link is that of an attribute of a class: it leads from the number of the class to the number of the node
for the range of the attribute, and has its name. -/
def Document.Links (document : Document) (nodes : List GraphNode) (pair : String × Attribute) (link : GraphLink) :
    Prop :=
  nodes[link.source]? = some (.ofClass pair.1) ∧ link.label = pair.2.name ∧
    ∃ range, document.resolveRange pair.2 = .ok range ∧ nodes[link.target]? = some (Datatype.ofRange range).node

/-- The graph of a document has each class and each datatype in use for a node once, and nothing else. Its links
correspond one to one to the classes with their attributes, inherited ones included, and lead to the nodes for the
ranges. The references from a class ascend, and are the classes that its attributes have for ranges; those to a
class are the classes that refer to it. -/
theorem SchemaGraph.layout_mirrors_attributes {document : Document} {graph : SchemaGraph}
    (distinct : document.classes.keys.Nodup) (graphed : ofDocument document = .ok graph) :
    graph.nodes.Nodup ∧
      (∀ node, node ∈ graph.nodes ↔ (∃ name ∈ document.classes.keys, node = .ofClass name) ∨
        ∃ pair ∈ document.inducedPairs, ∃ kind, document.resolveRange pair.2 = .ok (.scalar kind) ∧
          node = .ofDatatype (.ofRange (.scalar kind))) ∧
      (∀ name ∈ document.classes.keys, ∃ attributes, document.inducedAttributes name = .ok attributes ∧
        ∀ attr, attr ∈ attributes ↔ (name, attr) ∈ document.inducedPairs) ∧
      document.inducedPairs.Nodup ∧
      List.Forall₂ (document.Links graph.nodes) document.inducedPairs graph.layout.links ∧
      (∀ name, (graph.referencesFrom name).Pairwise (· < ·) ∧ ∀ target, target ∈ graph.referencesFrom name ↔
        ∃ attr, (name, attr) ∈ document.inducedPairs ∧ document.resolveRange attr = .ok (.instanceOf target)) ∧
      ∀ name target, target ∈ graph.referencesFrom name ↔ name ∈ graph.referencesTo target := by
  have shows := graph.shows_layout
  obtain ⟨_, induces, draws⟩ := draws_of_ofDocument graphed
  refine ⟨shows.distinct, mem_nodes_iff graphed, ?_, Document.nodup_inducedPairs graphed distinct, ?_, ?_,
    GraphLayout.mem_neighbours_swap shows.distinct _ _⟩
  · intro name isClass
    obtain ⟨attributes, induced⟩ := induces name isClass
    refine ⟨attributes, induced, fun attr => ?_⟩
    simp [Document.mem_inducedPairs_iff graphed, isClass, induced]
  · refine forall₂_compose draws shows.links.flip ?_
    intro pair edge link drawn joins
    obtain ⟨range, resolved, leads⟩ := drawn.target
    exact ⟨drawn.source ▸ joins.source, joins.label.trans drawn.label, range, resolved, leads ▸ joins.target⟩
  · exact fun name => ⟨graph.layout.pairwise_neighbours _ _ name, mem_referencesFrom_iff_range graphed name⟩

/-- The graph of residents: a person's home joins two classes, and five other attributes lead to datatypes. -/
theorem SchemaGraph.layout_mirrors_attributes_residents : ∃ graph,
    Document.residents.classes.keys.Nodup ∧ ofDocument .residents = .ok graph ∧
      graph.nodes = [.ofClass "Person", .ofClass "Named", .ofClass "Place", .ofDatatype .string, .ofDatatype .integer,
        .ofDatatype (.resource none)] ∧
      graph.layout.links = [⟨0, 3, "id"⟩, ⟨0, 4, "born"⟩, ⟨0, 5, "page"⟩, ⟨0, 3, "nicknames"⟩, ⟨0, 2, "home"⟩,
        ⟨1, 3, "id"⟩, ⟨2, 3, "name"⟩] ∧
      graph.nodes.Nodup ∧ Document.residents.inducedPairs.Nodup ∧
      List.Forall₂ (Document.residents.Links graph.nodes) Document.residents.inducedPairs graph.layout.links ∧
      graph.referencesFrom "Person" = ["Place"] ∧ graph.referencesTo "Place" = ["Person"] ∧
      ("Place" ∈ graph.referencesFrom "Person" ↔ "Person" ∈ graph.referencesTo "Place") := by
  have distinct : Document.residents.classes.keys.Nodup := by decide
  have computed : ((ofDocument .residents).toOption.map fun graph =>
      (graph.nodes, graph.layout.links, graph.referencesFrom "Person", graph.referencesTo "Place")) =
      some ([.ofClass "Person", .ofClass "Named", .ofClass "Place", .ofDatatype .string, .ofDatatype .integer,
          .ofDatatype (.resource none)],
        [⟨0, 3, "id"⟩, ⟨0, 4, "born"⟩, ⟨0, 5, "page"⟩, ⟨0, 3, "nicknames"⟩, ⟨0, 2, "home"⟩, ⟨1, 3, "id"⟩,
          ⟨2, 3, "name"⟩], ["Place"], ["Person"]) := by decide +kernel
  cases graphed : ofDocument .residents with
  | error error => simp [graphed, Except.toOption] at computed
  | ok graph =>
    simp only [graphed, Except.toOption, Option.map_some, Option.some.injEq, Prod.mk.injEq] at computed
    obtain ⟨nodes, links, leaving, coming⟩ := computed
    obtain ⟨nodup, _, _, pairs, corresponds, _, converse⟩ := layout_mirrors_attributes distinct graphed
    exact ⟨graph, distinct, rfl, nodes, links, nodup, pairs, corresponds, leaving, coming, converse _ _⟩

end ClassSchema
