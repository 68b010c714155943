import ClassSchema.Proofs.BlockTokens
import ClassSchema.Yaml.Source

/-! # The nodes of block text

The tokens of a layout are put together into its node: scalars with their style and without a tag,
sequences and mappings in their order. Nothing in a layout is anchored, so that only its depth bounds how
it is expanded.
-/

namespace ClassSchema.Block

open Yaml

mutual

/-- The node of a layout. -/
def Layout.node : Layout → Node
  | .plain text => .scalar none .plain text
  | .quoted text => .scalar none .doubleQuoted text
  | .sequence items => .sequence none (itemNodes items)
  | .mapping entries => .mapping none (entryNodes entries)

/-- The nodes of items. -/
def itemNodes : List Layout → List Node
  | [] => []
  | item :: rest => item.node :: itemNodes rest

/-- The nodes of entries. -/
def entryNodes : List (String × Layout) → List (Node × Node)
  | [] => []
  | (name, value) :: rest => (.scalar none (keyStyle name) name, value.node) :: entryNodes rest

end

mutual

/-- The node of a layout before it is expanded. -/
def Layout.linked : Layout → LinkedNode
  | .plain text => .scalar none .plain text
  | .quoted text => .scalar none .doubleQuoted text
  | .sequence items => .sequence none (linkedItems items)
  | .mapping entries => .mapping none (linkedEntries entries)

/-- The nodes of items before they are expanded. -/
def linkedItems : List Layout → List LinkedNode
  | [] => []
  | item :: rest => item.linked :: linkedItems rest

/-- The nodes of entries before they are expanded. -/
def linkedEntries : List (String × Layout) → List (LinkedNode × LinkedNode)
  | [] => []
  | (name, value) :: rest => (.scalar none (keyStyle name) name, value.linked) :: linkedEntries rest

end

mutual

/-- How deep collections are nested in a layout. -/
def Layout.depth : Layout → Nat
  | .sequence items => itemsDepth items + 1
  | .mapping entries => entriesDepth entries + 1
  | _ => 0

/-- How deep collections are nested in items. -/
def itemsDepth : List Layout → Nat
  | [] => 0
  | item :: rest => max item.depth (itemsDepth rest)

/-- How deep collections are nested in entries. -/
def entriesDepth : List (String × Layout) → Nat
  | [] => 0
  | (_, value) :: rest => max value.depth (entriesDepth rest)

end

/-- The tokens of a layout start with a scalar or with the start of a collection. -/
theorem exists_tokens_eq_cons (layout : Layout) : ∃ first rest, layout.tokens = first :: rest ∧
    [Token.blockEntry, .key, .value, .blockEnd].contains first = false := by
  cases layout with
  | sequence items => cases items <;> exact ⟨_, _, rfl, rfl⟩
  | mapping entries => cases entries <;> exact ⟨_, _, rfl, rfl⟩
  | _ => exact ⟨_, _, rfl, rfl⟩

variable (handles : Table String) (anchors : Table Nat)

theorem readNode_scalar (fuel : Nat) (inBlock indentless : Bool) (style : Style) (text : String)
    (rest : List Token) :
    readNode (fuel + 1) handles inBlock indentless ⟨.scalar style text :: rest, anchors⟩ =
      (.scalar none style text, some ⟨rest, anchors⟩) := rfl

theorem readNode_empty (fuel : Nat) (inBlock indentless : Bool) (rest : List Token) :
    readNode (fuel + 2) handles inBlock indentless ⟨.flowSequenceStart :: .flowSequenceEnd :: rest, anchors⟩ =
        (.sequence none [], some ⟨rest, anchors⟩) ∧
      readNode (fuel + 2) handles inBlock indentless ⟨.flowMappingStart :: .flowMappingEnd :: rest, anchors⟩ =
        (.mapping none [], some ⟨rest, anchors⟩) := ⟨rfl, rfl⟩

theorem readNode_sequence {fuel : Nat} (indentless : Bool) {rest : List Token} {items : List LinkedNode}
    {next : Option Position} (read : readBlockItems fuel handles ⟨rest, anchors⟩ = (items, next)) :
    readNode (fuel + 1) handles true indentless ⟨.blockSequenceStart :: rest, anchors⟩ =
      (.sequence none items, next) := by
  simp [readNode, properties?, Position.withAnchor, Position.leaving, Position.anchorNode, read]

theorem readNode_mapping {fuel : Nat} (indentless : Bool) {rest : List Token}
    {entries : List (LinkedNode × LinkedNode)} {next : Option Position}
    (read : readBlockEntries fuel handles ⟨rest, anchors⟩ = (entries, next)) :
    readNode (fuel + 1) handles true indentless ⟨.blockMappingStart :: rest, anchors⟩ =
      (.mapping none entries, next) := by
  simp [readNode, properties?, Position.withAnchor, Position.leaving, Position.anchorNode, read]

theorem readBlockItems_entry {fuel : Nat} {rest : List Token} {item : LinkedNode} {next : Position}
    {items : List LinkedNode} {last : Option Position}
    (first : readNodeUnless fuel handles [.blockEntry, .blockEnd] true false ⟨rest, anchors⟩ =
      (item, some next))
    (others : readBlockItems fuel handles next = (items, last)) :
    readBlockItems (fuel + 1) handles ⟨.blockEntry :: rest, anchors⟩ = (item :: items, last) := by
  simp [readBlockItems, Position.leaving, first, others]

theorem readBlockEntries_entry {fuel : Nat} {rest : List Token} {value : LinkedNode} {next : Position}
    {entries : List (LinkedNode × LinkedNode)} {last : Option Position} (style : Style) (name : String)
    (first : readNodeUnless (fuel + 1) handles [.key, .value, .blockEnd] true true ⟨rest, anchors⟩ =
      (value, some next))
    (others : readBlockEntries (fuel + 1) handles next = (entries, last)) :
    readBlockEntries (fuel + 3) handles ⟨.key :: .scalar style name :: .value :: rest, anchors⟩ =
      ((.scalar none style name, value) :: entries, last) := by
  have keyed : readBlockEntries (fuel + 3) handles ⟨.key :: .scalar style name :: .value :: rest, anchors⟩ =
      readBlockValue (fuel + 2) handles (.scalar none style name) ⟨.value :: rest, anchors⟩ := rfl
  simp [keyed, readBlockValue, Position.leaving, first, others]

/-- Where no closer comes first, the node that stands there is read. -/
theorem readNodeUnless_layout (layout : Layout) {fuel : Nat} {closers : List Token}
    (closing : closers ⊆ [.blockEntry, .key, .value, .blockEnd]) (indentless : Bool) (rest : List Token)
    {result : LinkedNode × Option Position}
    (read : readNode fuel handles true indentless ⟨layout.tokens ++ rest, anchors⟩ = result) :
    readNodeUnless (fuel + 1) handles closers true indentless ⟨layout.tokens ++ rest, anchors⟩ = result := by
  obtain ⟨first, others, split, noCloser⟩ := exists_tokens_eq_cons layout
  rw [split, List.cons_append] at read ⊢
  have absent : closers.contains first = false := by
    rw [← Bool.not_eq_true, List.contains_iff_mem] at noCloser ⊢
    intro member
    exact noCloser (closing member)
  simp only [readNodeUnless, absent, Bool.false_eq_true, if_false, read]

mutual

/-- The node of a layout is read from its tokens. -/
theorem readNode_layout : ∀ (layout : Layout) (indentless : Bool) (rest : List Token) {fuel : Nat},
    2 * layout.tokens.length ≤ fuel →
      readNode fuel handles true indentless ⟨layout.tokens ++ rest, anchors⟩ =
        (layout.linked, some ⟨rest, anchors⟩)
  | .plain text, indentless, rest, fuel + 2, _ => readNode_scalar handles anchors _ _ _ _ _ _
  | .quoted text, indentless, rest, fuel + 2, _ => readNode_scalar handles anchors _ _ _ _ _ _
  | .sequence [], indentless, rest, fuel + 2, _ => (readNode_empty handles anchors _ _ _ _).1
  | .mapping [], indentless, rest, fuel + 2, _ => (readNode_empty handles anchors _ _ _ _).2
  | .sequence (item :: others), indentless, rest, fuel + 1, enough => by
    simp only [Layout.tokens, List.length_cons, List.length_append, List.length_nil] at enough
    rw [Layout.tokens, List.cons_append, List.append_assoc]
    apply readNode_sequence
    exact readBlockItems_tokens (item :: others) rest (by omega)
  | .mapping (entry :: others), indentless, rest, fuel + 1, enough => by
    simp only [Layout.tokens, List.length_cons, List.length_append, List.length_nil] at enough
    rw [Layout.tokens, List.cons_append, List.append_assoc]
    apply readNode_mapping
    exact readBlockEntries_tokens (entry :: others) rest (by omega)

/-- The items of a block sequence are read from their tokens, up to its end. -/
theorem readBlockItems_tokens : ∀ (items : List Layout) (rest : List Token) {fuel : Nat},
    2 * (itemTokens items).length < fuel →
      readBlockItems fuel handles ⟨itemTokens items ++ .blockEnd :: rest, anchors⟩ =
        (linkedItems items, some ⟨rest, anchors⟩)
  | [], rest, fuel + 1, _ => rfl
  | item :: others, rest, fuel + 2, enough => by
    simp only [itemTokens, List.length_cons, List.length_append] at enough
    have first := readNodeUnless_layout handles anchors item
      (show [Token.blockEntry, .blockEnd] ⊆ _ by decide) false (itemTokens others ++ .blockEnd :: rest)
      (@readNode_layout item false _ fuel (by omega))
    rw [itemTokens, List.cons_append, List.append_assoc]
    exact readBlockItems_entry handles anchors first (@readBlockItems_tokens others rest (fuel + 1) (by omega))

/-- The entries of a block mapping are read from their tokens, up to its end. -/
theorem readBlockEntries_tokens : ∀ (entries : List (String × Layout)) (rest : List Token) {fuel : Nat},
    2 * (entryTokens entries).length < fuel →
      readBlockEntries fuel handles ⟨entryTokens entries ++ .blockEnd :: rest, anchors⟩ =
        (linkedEntries entries, some ⟨rest, anchors⟩)
  | [], rest, fuel + 1, _ => rfl
  | (name, value) :: others, rest, fuel + 3, enough => by
    simp only [entryTokens, List.length_cons, List.length_append] at enough
    have first := readNodeUnless_layout handles anchors value
      (show [Token.key, .value, .blockEnd] ⊆ _ by decide) true (entryTokens others ++ .blockEnd :: rest)
      (@readNode_layout value true _ fuel (by omega))
    rw [entryTokens, List.cons_append, List.cons_append, List.cons_append, List.append_assoc]
    exact readBlockEntries_entry handles anchors _ name first
      (@readBlockEntries_tokens others rest (fuel + 1) (by omega))

end

mutual

/-- A layout that is not too deep expands to its node, and no alias is followed. -/
theorem expandNode_layout (targets : List (Nat × LinkedNode)) : ∀ (layout : Layout) (depth budget : Nat),
    layout.depth ≤ depth → expandNode targets depth budget layout.linked = (layout.node, budget)
  | .plain _, 0, _, _ => rfl
  | .plain _, _ + 1, _, _ => rfl
  | .quoted _, 0, _, _ => rfl
  | .quoted _, _ + 1, _, _ => rfl
  | .sequence items, depth + 1, budget, shallow => by
    have each := expandEach_items targets items depth budget (Nat.le_of_succ_le_succ shallow)
    have step : expandNode targets (depth + 1) budget (.sequence none (linkedItems items)) =
        (.sequence none (expandEach (expandNode targets depth) budget (linkedItems items)).1,
          (expandEach (expandNode targets depth) budget (linkedItems items)).2) := rfl
    rw [Layout.linked, step, each, Layout.node]
  | .mapping entries, depth + 1, budget, shallow => by
    have each := expandPairs_entries targets entries depth budget (Nat.le_of_succ_le_succ shallow)
    have step : expandNode targets (depth + 1) budget (.mapping none (linkedEntries entries)) =
        (.mapping none (expandPairs (expandNode targets depth) budget (linkedEntries entries)).1,
          (expandPairs (expandNode targets depth) budget (linkedEntries entries)).2) := rfl
    rw [Layout.linked, step, each, Layout.node]

theorem expandEach_items (targets : List (Nat × LinkedNode)) : ∀ (items : List Layout) (depth budget : Nat),
    itemsDepth items ≤ depth →
      expandEach (expandNode targets depth) budget (linkedItems items) = (itemNodes items, budget)
  | [], _, _, _ => rfl
  | item :: rest, depth, budget, shallow => by
    obtain ⟨first, others⟩ := Nat.max_le.mp shallow
    simp only [linkedItems, expandEach, expandNode_layout targets item depth budget first,
      expandEach_items targets rest depth budget others, itemNodes]

theorem expandPairs_entries (targets : List (Nat × LinkedNode)) : ∀ (entries : List (String × Layout))
    (depth budget : Nat), entriesDepth entries ≤ depth →
      expandPairs (expandNode targets depth) budget (linkedEntries entries) = (entryNodes entries, budget)
  | [], _, _, _ => rfl
  | (name, value) :: rest, depth, budget, shallow => by
    obtain ⟨first, others⟩ := Nat.max_le.mp shallow
    have key : expandNode targets depth budget (.scalar none (keyStyle name) name) =
        (.scalar none (keyStyle name) name, budget) := by
      cases depth <;> rfl
    simp only [linkedEntries, expandPairs, key, expandNode_layout targets value depth budget first,
      expandPairs_entries targets rest depth budget others, entryNodes]

end

/-- The tokens of a mapping with the end of the text behind them are read as a document. -/
theorem readDocument_mapping (entries : List (String × Layout)) :
    readDocument ((Layout.mapping entries).tokens ++ [.streamEnd]) =
      ((Layout.mapping entries).linked, some [.streamEnd]) := by
  cases entries with
  | nil => rfl
  | cons entry rest =>
    have read := @readNode_layout defaultHandles [] (.mapping (entry :: rest)) false [Token.streamEnd]
      (4 * ((Layout.mapping (entry :: rest)).tokens ++ [Token.streamEnd]).length + 4) (by
        rw [List.length_append]
        omega)
    simp only [Layout.tokens, List.cons_append] at read ⊢
    simp only [readDocument, endsDocument, read, Bool.false_and, Bool.false_eq_true, if_false, Option.map_some]

/-- A legible document that is not too deep is read as its node, to its end. -/
theorem ofText_documentText {entries : List (String × Layout)} (legible : entriesAreLegible entries)
    (shallow : (Layout.mapping entries).depth ≤ maxDepth) :
    Source.ofText (documentText entries) = ⟨.mapping none (entryNodes entries), true⟩ := by
  have expanded := fun targets budget => expandNode_layout targets (.mapping entries) maxDepth budget shallow
  simp only [Source.ofText, tokens_documentText legible, readDocument_mapping, expanded]
  rfl

end ClassSchema.Block
