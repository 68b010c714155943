import ClassSchema.Yaml.Source

/-! # What is left of the tokens

A node is read from the front of the tokens, so what is left is always an end of them. A document that is read to its
end has the end of the text among its tokens.
-/

namespace ClassSchema.Yaml

namespace Position

/-- Whether what is left behind a position, if it can be read on, is an end of what is left at it. -/
def Leaves (position : Position) (next? : Option Position) : Prop :=
  ∀ next ∈ next?, next.tokens <:+ position.tokens

variable {position : Position} {next? : Option Position} {token : Token} {rest : List Token}

theorem leaves_none (position : Position) : position.Leaves none :=
  nofun

theorem leaves_self (position : Position) : position.Leaves (some position) := by
  rintro _ ⟨⟩
  exact List.suffix_refl _

theorem Leaves.of_suffix {inner : Position} (leaves : inner.Leaves next?)
    (inside : inner.tokens <:+ position.tokens) : position.Leaves next? :=
  fun next found => (leaves next found).trans inside

theorem Leaves.trans {next : Position} (first : position.Leaves (some next)) (second : next.Leaves next?) :
    position.Leaves next? :=
  second.of_suffix (first next rfl)

theorem leaves_leaving (same : position.tokens = token :: rest) : position.Leaves (some (position.leaving rest)) := by
  rintro _ ⟨⟩
  rw [same]
  exact List.suffix_cons token rest

end Position

open Position

/-- Whether all readers leave an end of what they are given. -/
structure ReadsForward (fuel : Nat) : Prop where
  node : ∀ handles inBlock indentless position, Leaves position (readNode fuel handles inBlock indentless position).2
  nodeUnless : ∀ handles closers inBlock indentless position,
    Leaves position (readNodeUnless fuel handles closers inBlock indentless position).2
  blockItems : ∀ handles position, Leaves position (readBlockItems fuel handles position).2
  indentlessItems : ∀ handles position, Leaves position (readIndentlessItems fuel handles position).2
  blockEntries : ∀ handles position, Leaves position (readBlockEntries fuel handles position).2
  blockValue : ∀ handles key position, Leaves position (readBlockValue fuel handles key position).2
  flowItems : ∀ handles isFirst position, Leaves position (readFlowItems fuel handles isFirst position).2
  flowItem : ∀ handles position, Leaves position (readFlowItem fuel handles position).2
  flowPair : ∀ handles position, Leaves position (readFlowPair fuel handles position).2
  flowValue : ∀ handles closer position, Leaves position (readFlowValue fuel handles closer position).2
  flowEntries : ∀ handles isFirst position, Leaves position (readFlowEntries fuel handles isFirst position).2
  flowPairs : ∀ handles position, Leaves position (readFlowPairs fuel handles position).2

theorem readsForward_zero : ReadsForward 0 where
  node _ _ _ _ := leaves_none _
  nodeUnless _ _ _ _ _ := leaves_none _
  blockItems _ _ := leaves_none _
  indentlessItems _ _ := leaves_none _
  blockEntries _ _ := leaves_none _
  blockValue _ _ _ := leaves_none _
  flowItems _ _ _ := leaves_none _
  flowItem _ _ := leaves_none _
  flowPair _ _ := leaves_none _
  flowValue _ _ _ := leaves_none _
  flowEntries _ _ _ := leaves_none _
  flowPairs _ _ := leaves_none _

theorem suffix_of_properties? {handles : Table String} {tokens rest : List Token} {properties : Properties}
    (found : properties? handles tokens = some (properties, rest)) : rest <:+ tokens := by
  unfold properties? at found
  split at found
  · obtain ⟨_, _, same⟩ := Option.map_eq_some_iff.mp found
    cases same
    exact (List.suffix_cons _ _).trans (List.suffix_cons _ _)
  · cases found
    exact List.suffix_cons _ _
  · obtain ⟨_, _, same⟩ := Option.map_eq_some_iff.mp found
    cases same
    exact (List.suffix_cons _ _).trans (List.suffix_cons _ _)
  · obtain ⟨_, _, same⟩ := Option.map_eq_some_iff.mp found
    cases same
    exact List.suffix_cons _ _
  · cases found
    exact List.suffix_refl _

namespace ReadsForward

variable {fuel : Nat} (shorter : ReadsForward fuel) (handles : Table String)
include shorter

theorem node_succ (inBlock indentless : Bool) (position : Position) :
    Leaves position (readNode (fuel + 1) handles inBlock indentless position).2 := by
  unfold readNode
  split
  · rename_i name rest same behind
    split
    · exact leaves_leaving behind
    · exact leaves_none _
  · rename_i same _
    cases same
    split
    · exact leaves_none _
    · rename_i properties rest found
      have inside := suffix_of_properties? found
      dsimp only
      split
      · exact (leaves_self _).of_suffix ((List.suffix_cons _ _).trans inside)
      · exact (shorter.flowItems handles true _).of_suffix ((List.suffix_cons _ _).trans inside)
      · exact (shorter.flowEntries handles true _).of_suffix ((List.suffix_cons _ _).trans inside)
      · split
        · exact (shorter.indentlessItems handles _).of_suffix inside
        · split
          · exact (shorter.blockItems handles _).of_suffix ((List.suffix_cons _ _).trans inside)
          · split
            · exact (shorter.blockEntries handles _).of_suffix ((List.suffix_cons _ _).trans inside)
            · split
              · exact (leaves_self _).of_suffix inside
              · exact leaves_none _
      · exact leaves_none _
  · exact leaves_none _

theorem nodeUnless_succ (closers : List Token) (inBlock indentless : Bool) (position : Position) :
    Leaves position (readNodeUnless (fuel + 1) handles closers inBlock indentless position).2 := by
  unfold readNodeUnless
  split
  · rename_i token rest same behind
    cases same
    split
    · rw [← behind]
      exact leaves_self position
    · exact shorter.node handles inBlock indentless position
  · exact leaves_none _

theorem blockItems_succ (position : Position) : Leaves position (readBlockItems (fuel + 1) handles position).2 := by
  unfold readBlockItems
  split
  · rename_i rest same behind
    cases same
    have item := shorter.nodeUnless handles [.blockEntry, .blockEnd] true false (position.leaving rest)
    split
    · exact leaves_none _
    · rename_i read
      rw [read] at item
      exact ((leaves_leaving behind).trans item).trans (shorter.blockItems handles _)
  · rename_i behind
    exact leaves_leaving behind
  · exact leaves_none _

theorem indentlessItems_succ (position : Position) :
    Leaves position (readIndentlessItems (fuel + 1) handles position).2 := by
  unfold readIndentlessItems
  split
  · rename_i rest same behind
    cases same
    have item := shorter.nodeUnless handles [.blockEntry, .key, .value, .blockEnd] true false (position.leaving rest)
    split
    · exact leaves_none _
    · rename_i read
      rw [read] at item
      exact ((leaves_leaving behind).trans item).trans (shorter.indentlessItems handles _)
  · exact leaves_self position
  · exact leaves_none _

theorem blockEntries_succ (position : Position) :
    Leaves position (readBlockEntries (fuel + 1) handles position).2 := by
  unfold readBlockEntries
  split
  · rename_i rest same behind
    cases same
    have key := shorter.nodeUnless handles [.key, .value, .blockEnd] true true (position.leaving rest)
    split
    · exact leaves_none _
    · rename_i read
      rw [read] at key
      exact ((leaves_leaving behind).trans key).trans (shorter.blockValue handles _ _)
  · rename_i behind
    exact leaves_leaving behind
  · exact leaves_none _

theorem blockValue_succ (key : LinkedNode) (position : Position) :
    Leaves position (readBlockValue (fuel + 1) handles key position).2 := by
  unfold readBlockValue
  split
  · rename_i rest same behind
    cases same
    have value := shorter.nodeUnless handles [.key, .value, .blockEnd] true true (position.leaving rest)
    split
    · exact leaves_none _
    · rename_i read
      rw [read] at value
      exact ((leaves_leaving behind).trans value).trans (shorter.blockEntries handles _)
  · rename_i same _
    cases same
    exact shorter.blockEntries handles position
  · exact leaves_none _

theorem flowItems_succ (isFirst : Bool) (position : Position) :
    Leaves position (readFlowItems (fuel + 1) handles isFirst position).2 := by
  unfold readFlowItems
  split
  · rename_i behind
    exact leaves_leaving behind
  · rename_i rest same behind
    cases same
    split
    · exact leaves_none _
    · exact (leaves_leaving behind).trans (shorter.flowItem handles _)
  · rename_i same _
    cases same
    split
    · exact shorter.flowItem handles position
    · exact leaves_none _
  · exact leaves_none _

theorem flowItem_succ (position : Position) : Leaves position (readFlowItem (fuel + 1) handles position).2 := by
  unfold readFlowItem
  split
  · rename_i behind
    exact leaves_leaving behind
  · rename_i rest same behind
    cases same
    have item := shorter.flowPair handles (position.leaving rest)
    split
    · exact leaves_none _
    · rename_i read
      rw [read] at item
      exact ((leaves_leaving behind).trans item).trans (shorter.flowItems handles false _)
  · rename_i same _
    cases same
    have item := shorter.node handles false false position
    split
    · exact leaves_none _
    · rename_i read
      rw [read] at item
      exact item.trans (shorter.flowItems handles false _)
  · exact leaves_none _

theorem flowPair_succ (position : Position) : Leaves position (readFlowPair (fuel + 1) handles position).2 := by
  unfold readFlowPair
  split
  · rename_i token rest same behind
    cases same
    have key : position.Leaves (if [Token.value, .flowEntry, .flowSequenceEnd].contains token then
        (LinkedNode.empty, some (position.leaving rest)) else readNode fuel handles false false position).2 := by
      split
      · exact leaves_leaving behind
      · exact shorter.node handles false false position
    dsimp only
    split
    · exact leaves_none _
    · rename_i read
      rw [read] at key
      exact key.trans (shorter.flowValue handles .flowSequenceEnd _)
  · exact leaves_none _

theorem flowValue_succ (closer : Token) (position : Position) :
    Leaves position (readFlowValue (fuel + 1) handles closer position).2 := by
  unfold readFlowValue
  split
  · rename_i rest same behind
    cases same
    exact (leaves_leaving behind).trans (shorter.nodeUnless handles _ false false _)
  · exact leaves_self position
  · exact leaves_none _

theorem flowEntries_succ (isFirst : Bool) (position : Position) :
    Leaves position (readFlowEntries (fuel + 1) handles isFirst position).2 := by
  unfold readFlowEntries
  split
  · rename_i behind
    exact leaves_leaving behind
  · rename_i rest same behind
    cases same
    split
    · exact leaves_none _
    · exact (leaves_leaving behind).trans (shorter.flowPairs handles _)
  · rename_i same _
    cases same
    split
    · exact shorter.flowPairs handles position
    · exact leaves_none _
  · exact leaves_none _

theorem flowPairs_succ (position : Position) : Leaves position (readFlowPairs (fuel + 1) handles position).2 := by
  unfold readFlowPairs
  split
  · rename_i behind
    exact leaves_leaving behind
  · rename_i rest same behind
    cases same
    have key := shorter.nodeUnless handles [.value, .flowEntry, .flowMappingEnd] false false (position.leaving rest)
    split
    · exact leaves_none _
    · rename_i next read
      rw [read] at key
      have value := shorter.flowValue handles .flowMappingEnd next
      split
      · exact leaves_none _
      · rename_i read
        rw [read] at value
        exact (((leaves_leaving behind).trans key).trans value).trans (shorter.flowEntries handles false _)
  · rename_i same _
    cases same
    have key := shorter.node handles false false position
    split
    · exact leaves_none _
    · rename_i read
      rw [read] at key
      exact key.trans (shorter.flowEntries handles false _)
  · exact leaves_none _

theorem succ : ReadsForward (fuel + 1) where
  node := shorter.node_succ
  nodeUnless := shorter.nodeUnless_succ
  blockItems := shorter.blockItems_succ
  indentlessItems := shorter.indentlessItems_succ
  blockEntries := shorter.blockEntries_succ
  blockValue := shorter.blockValue_succ
  flowItems := shorter.flowItems_succ
  flowItem := shorter.flowItem_succ
  flowPair := shorter.flowPair_succ
  flowValue := shorter.flowValue_succ
  flowEntries := shorter.flowEntries_succ
  flowPairs := shorter.flowPairs_succ

end ReadsForward

/-- Every reader leaves an end of what it is given. -/
theorem readsForward : ∀ fuel, ReadsForward fuel
  | 0 => readsForward_zero
  | fuel + 1 => (readsForward fuel).succ

theorem suffix_of_directives? {versionSeen : Bool} {handles found : Table String} {tokens rest : List Token}
    (read : directives? versionSeen handles tokens = some (found, rest)) : rest <:+ tokens := by
  fun_induction directives? versionSeen handles tokens with
  | case1 => cases read
  | case2 _ _ _ _ _ _ ih => exact (ih read).trans (List.suffix_cons _ _)
  | case3 => cases read
  | case4 _ _ _ _ _ _ ih => exact (ih read).trans (List.suffix_cons _ _)
  | case5 =>
    cases read
    exact List.suffix_refl _

/-- What is left behind a document is an end of the tokens. -/
theorem suffix_of_readDocument {tokens rest : List Token} {root : LinkedNode}
    (read : readDocument tokens = (root, some rest)) : rest <:+ tokens := by
  have readRoot {handles : Table String} {inner : List Token} (fuel : Nat)
      (found : (readNode fuel handles true false ⟨inner, []⟩).2.map Position.tokens = some rest) : rest <:+ inner := by
    obtain ⟨next, isNext, rfl⟩ := Option.map_eq_some_iff.mp found
    exact (readsForward fuel).node handles true false ⟨inner, []⟩ next isNext
  unfold readDocument at read
  dsimp only at read
  split at read
  · cases read
  · cases read
    exact List.suffix_refl _
  · split at read
    · split at read
      · rename_i next behind directives
        have inside := suffix_of_directives? directives
        split at read
        · cases read
          exact (List.suffix_cons _ _).trans inside
        · exact (readRoot _ (Prod.mk.inj read).2).trans ((List.suffix_cons _ _).trans inside)
      · cases read
    · exact readRoot _ (Prod.mk.inj read).2

/-- Only a text that is read to its end is clean. -/
theorem streamEnd_mem_of_isClean {text : String} (clean : (Source.ofText text).isClean = true) :
    .streamEnd ∈ tokens text := by
  unfold Source.ofText at clean
  dsimp only at clean
  split at clean
  · rename_i rest found
    have inside := suffix_of_readDocument (Prod.ext rfl found)
    have ending : .streamEnd ∈ rest.dropWhile (· == .documentEnd) := List.mem_of_mem_head? (beq_iff_eq.mp clean)
    exact inside.subset ((List.dropWhile_suffix _).subset ending)
  · cases clean

end ClassSchema.Yaml
