import ClassSchema.Proofs.BlockNodes
import ClassSchema.Proofs.RemainingTokens

/-! # Keys of block text

A key without an indicator shows as one at the colon behind it, and only if that is at most 1024 characters away. So
a longer key is read as a scalar, and reading stops at its colon. Documents of words are therefore read to their end
exactly if all their keys are short.
-/

namespace ClassSchema.Yaml

/-- Whether reading stops behind a state before the end of the text. -/
def TokenState.Stops (state : TokenState) : Prop :=
  ∃ last, Scans state last ∧ last.next? = none ∧ .streamEnd ∉ last.produced

namespace TokenState

variable {state next : TokenState}

theorem Stops.of_scans (stops : next.Stops) (scans : Scans state next) : state.Stops := by
  obtain ⟨last, further, stuck, noEnd⟩ := stops
  exact ⟨last, scans.trans further, stuck, noEnd⟩

theorem not_mem_settled {token : Token} (missing : token ∉ state.produced) : token ∉ state.settled :=
  fun member => missing (List.mem_reverse.mp (List.mem_of_mem_take member))

/-- Where reading stops, the end of the text is no token. -/
theorem Stops.streamEnd_not_mem_run (stops : state.Stops) {fuel : Nat} (enough : state.cursor.rest.length < fuel) :
    .streamEnd ∉ state.run fuel := by
  obtain ⟨last, scans, stuck, noEnd⟩ := stops
  induction scans generalizing fuel with
  | refl state =>
    obtain ⟨fuel, rfl⟩ := Nat.exists_eq_succ_of_ne_zero (Nat.ne_zero_of_lt enough)
    rw [run, stuck]
    exact not_mem_settled noEnd
  | step found goesOn shorter _ ih =>
    obtain ⟨fuel, rfl⟩ := Nat.exists_eq_succ_of_ne_zero (Nat.ne_zero_of_lt enough)
    rw [run, found]
    simp only [beq_iff_eq, goesOn, if_false]
    exact ih (by omega) stuck noEnd

/-- Nothing is read at a colon whose key is too far away. A key that must be one is missed, and without one no key may
start at the colon. -/
theorem next?_of_isStale {mark : Mark} {after : List Char} {produced : List Token} {indent : Int}
    {outer : List Int} {key : PossibleKey} (alone : atBlankOrEnd after = true)
    (stale : isStale mark key = true) (shallow : indent ≤ mark.column) :
    (TokenState.mk ⟨mark, ':' :: after⟩ produced indent outer false [some key]).next? = none := by
  have spaceless : StartsToken ':' := by simp [StartsToken, isBlank, isBreak]
  have skips := skipToToken_of_starts spaceless false after mark false
  by_cases required : key.required = true
  · simp [next?, inFlow, skips, dropStaleKeys?, required, stale]
  · have unclosed := @closeBlocks_of_le ⟨⟨mark, ':' :: after⟩, produced, indent, outer, false, [none]⟩ _
      (.inr shallow)
    simp [next?, inFlow, skips, dropStaleKeys?, required, stale, Option.filter, Cursor.column, unclosed,
      pushTokenAt?, atDocumentMark, standsAlone, alone, pushValue?]

end TokenState

/-- A key that is too long is read as a scalar, and reading stops at its colon. -/
theorem Rests.stops_key {state : TokenState} {column : Nat} {produced : List Token} {indent : Int} {outer : List Int}
    {name : String} {after : List Char}
    (rests : Rests state column produced indent outer (Block.indentation column ++ (Block.key name ++ ':' :: after)))
    (alone : atBlankOrEnd after = true) (long : 1024 < (Block.key name).length) (noEnd : .streamEnd ∉ produced) :
    state.Stops := by
  obtain ⟨_, _, _, shallow, _⟩ := rests.closes
  obtain ⟨mark, there, scanned⟩ := rests.scans_name alone
  subst there
  refine ⟨_, scanned, TokenState.next?_of_isStale alone ?_ ?_, by simpa using noEnd⟩
  · simp [TokenState.isStale, Mark.forward, long]
  · simp only [Mark.forward]
    omega

end ClassSchema.Yaml

namespace ClassSchema.Block

open Yaml

mutual

/-- The names of the keys of a layout. -/
def Layout.names : Layout → List String
  | .plain _ => []
  | .quoted _ => []
  | .sequence items => itemNames items
  | .mapping entries => entryNames entries

/-- The names of the keys of items. -/
def itemNames : List Layout → List String
  | [] => []
  | item :: rest => item.names ++ itemNames rest

/-- The names of the keys of entries. -/
def entryNames : List (String × Layout) → List String
  | [] => []
  | (name, value) :: rest => name :: (value.names ++ entryNames rest)

end

mutual

/-- Whether what stands plainly in a layout is a word. -/
def Layout.HasWords : Layout → Prop
  | .plain text => PlainWord text.toList
  | .quoted _ => True
  | .sequence items => itemsHaveWords items
  | .mapping entries => entriesHaveWords entries

/-- Whether what stands plainly in items is a word. -/
def itemsHaveWords : List Layout → Prop
  | [] => True
  | item :: rest => item.HasWords ∧ itemsHaveWords rest

/-- Whether what stands plainly in entries is a word. -/
def entriesHaveWords : List (String × Layout) → Prop
  | [] => True
  | (_, value) :: rest => value.HasWords ∧ entriesHaveWords rest

end

/-- Whether a name is short enough for a key without an indicator. -/
def IsShortKey (name : String) : Prop :=
  (key name).length ≤ 1024

mutual

theorem isLegible_iff : ∀ layout : Layout,
    layout.IsLegible ↔ layout.HasWords ∧ ∀ name ∈ layout.names, IsShortKey name
  | .plain _ => by simp [Layout.IsLegible, Layout.HasWords, Layout.names]
  | .quoted _ => by simp [Layout.IsLegible, Layout.HasWords, Layout.names]
  | .sequence items => itemsAreLegible_iff items
  | .mapping entries => entriesAreLegible_iff entries

theorem itemsAreLegible_iff : ∀ items : List Layout,
    itemsAreLegible items ↔ itemsHaveWords items ∧ ∀ name ∈ itemNames items, IsShortKey name
  | [] => by simp [itemsAreLegible, itemsHaveWords, itemNames]
  | item :: rest => by
    rw [itemsAreLegible, isLegible_iff item, itemsAreLegible_iff rest, itemsHaveWords, itemNames,
      List.forall_mem_append, and_and_and_comm]

theorem entriesAreLegible_iff : ∀ entries : List (String × Layout),
    entriesAreLegible entries ↔ entriesHaveWords entries ∧ ∀ name ∈ entryNames entries, IsShortKey name
  | [] => by simp [entriesAreLegible, entriesHaveWords, entryNames]
  | (name, value) :: rest => by
    rw [entriesAreLegible, isLegible_iff value, entriesAreLegible_iff rest, entriesHaveWords, entryNames,
      List.forall_mem_cons, List.forall_mem_append]
    exact ⟨fun ⟨short, ⟨word, inValue⟩, words, inRest⟩ => ⟨⟨word, words⟩, short, inValue, inRest⟩,
      fun ⟨⟨word, words⟩, short, inValue, inRest⟩ => ⟨short, ⟨word, inValue⟩, words, inRest⟩⟩

end

mutual

/-- The end of the text is no token of a layout. -/
theorem streamEnd_not_mem_tokens : ∀ layout : Layout, .streamEnd ∉ layout.tokens
  | .plain _ => by simp [Layout.tokens]
  | .quoted _ => by simp [Layout.tokens]
  | .sequence [] => by simp [Layout.tokens]
  | .mapping [] => by simp [Layout.tokens]
  | .sequence (item :: rest) => by
    simpa [Layout.tokens] using streamEnd_not_mem_itemTokens (item :: rest)
  | .mapping (entry :: rest) => by
    simpa [Layout.tokens] using streamEnd_not_mem_entryTokens (entry :: rest)

theorem streamEnd_not_mem_itemTokens : ∀ items : List Layout, .streamEnd ∉ itemTokens items
  | [] => List.not_mem_nil
  | item :: rest => by
    simpa [itemTokens] using ⟨streamEnd_not_mem_tokens item, streamEnd_not_mem_itemTokens rest⟩

theorem streamEnd_not_mem_entryTokens : ∀ entries : List (String × Layout), .streamEnd ∉ entryTokens entries
  | [] => List.not_mem_nil
  | (name, value) :: rest => by
    simpa [entryTokens] using ⟨streamEnd_not_mem_tokens value, streamEnd_not_mem_entryTokens rest⟩

end

theorem streamEnd_not_mem_append {tokens produced : List Token} (fresh : .streamEnd ∉ tokens)
    (noEnd : .streamEnd ∉ produced) : .streamEnd ∉ tokens.reverse ++ produced := by
  simp [fresh, noEnd]

/-- At the first of some entries reading stops if its key is long. -/
theorem stops_key {state : TokenState} {column : Nat} {produced : List Token} {indent : Int} {outer : List Int}
    {name : String} {value : Layout} {rest : List (String × Layout)} {text : List Char} (long : ¬ IsShortKey name)
    (noEnd : .streamEnd ∉ produced)
    (rests : Rests state column produced indent outer (entryLines column ((name, value) :: rest) ++ text)) :
    state.Stops := by
  rw [entryLines, List.append_assoc, List.append_assoc, List.append_assoc, List.cons_append] at rests
  exact rests.stops_key (atBlankOrEnd_afterMark column value _) (Nat.lt_of_not_le long) noEnd

mutual

/-- Behind a mark reading stops in a layout of words with a long key. -/
theorem stops_layout : ∀ (layout : Layout) {column : Nat} {mark : Mark} {produced : List Token}
    {outer : List Int} {allowed : Bool} {text : List Char}, layout.HasWords → ¬ layout.IsLegible →
      StartsLine column text → column < mark.column → .streamEnd ∉ produced →
        TokenState.Stops ⟨⟨mark, layout.afterMark column ++ text⟩, produced, column, outer, allowed, [none]⟩
  | .plain _, _, _, _, _, _, _, words, illegible, _, _, _ => absurd words illegible
  | .quoted _, _, _, _, _, _, _, _, illegible, _, _, _ => absurd trivial illegible
  | .sequence [], _, _, _, _, _, _, _, illegible, _, _, _ => absurd trivial illegible
  | .mapping [], _, _, _, _, _, _, _, illegible, _, _, _ => absurd trivial illegible
  | .sequence (item :: rest), column, mark, produced, outer, allowed, text, words, illegible, startsLine, _,
      noEnd => by
    have deeper : (column : Int) < (column + 2 : Nat) := by omega
    have rests := @rests_newline mark (itemLines (column + 2) (item :: rest) ++ text) produced column outer
      allowed none (column + 2) (by simp) (Int.le_of_lt deeper)
    exact stops_itemLines (item :: rest) words illegible (startsLine.mono (Nat.le_add_right column 2)) noEnd rests
  | .mapping ((name, value) :: rest), column, mark, produced, outer, allowed, text, words, illegible, startsLine, _,
      noEnd => by
    have deeper : (column : Int) < (column + 2 : Nat) := by omega
    have rests := @rests_newline mark (entryLines (column + 2) ((name, value) :: rest) ++ text) produced
      column outer allowed none (column + 2) (by simp) (Int.le_of_lt deeper)
    exact stops_entryLines ((name, value) :: rest) words illegible (startsLine.mono (Nat.le_add_right column 2)) noEnd
      rests

/-- In the lines of items with words and a long key reading stops. -/
theorem stops_itemLines : ∀ (items : List Layout) {state : TokenState} {column : Nat} {produced : List Token}
    {indent : Int} {outer : List Int} {text : List Char}, itemsHaveWords items → ¬ itemsAreLegible items →
      StartsLine column text → .streamEnd ∉ produced →
        Rests state column produced indent outer (itemLines column items ++ text) → state.Stops
  | [], _, _, _, _, _, _, _, illegible, _, _, _ => absurd trivial illegible
  | item :: rest, state, column, produced, indent, outer, text, words, illegible, startsLine, noEnd, rests => by
    obtain ⟨_, inside, hyphen⟩ := scans_hyphen rests
    have noEnd : .streamEnd ∉ .blockEntry :: (opening .blockSequenceStart column indent ++ produced) := by
      unfold opening
      split <;> simpa using noEnd
    have startsRest := startsLine_itemLines column rest startsLine
    by_cases legible : item.IsLegible
    · obtain ⟨_, first, rests⟩ := scans_layout item legible startsRest inside
      have stops := stops_itemLines rest words.2 (fun others => illegible ⟨legible, others⟩) startsLine
        (streamEnd_not_mem_append (streamEnd_not_mem_tokens item) noEnd) rests
      exact stops.of_scans (hyphen.trans first)
    · exact (stops_layout item words.1 legible startsRest inside noEnd).of_scans hyphen

/-- In the lines of entries with words and a long key reading stops. -/
theorem stops_entryLines : ∀ (entries : List (String × Layout)) {state : TokenState} {column : Nat}
    {produced : List Token} {indent : Int} {outer : List Int} {text : List Char}, entriesHaveWords entries →
      ¬ entriesAreLegible entries → StartsLine column text → .streamEnd ∉ produced →
        Rests state column produced indent outer (entryLines column entries ++ text) → state.Stops
  | [], _, _, _, _, _, _, _, illegible, _, _, _ => absurd trivial illegible
  | (name, value) :: rest, state, column, produced, indent, outer, text, words, illegible, startsLine, noEnd,
      rests => by
    by_cases short : IsShortKey name
    · obtain ⟨_, inside, keyed⟩ := scans_key short rests
      have noEnd : .streamEnd ∉ .value :: .scalar (keyStyle name) name :: .key ::
          (opening .blockMappingStart column indent ++ produced) := by
        unfold opening
        split <;> simpa using noEnd
      have startsRest := startsLine_entryLines column rest startsLine
      by_cases legible : value.IsLegible
      · obtain ⟨_, first, rests⟩ := scans_layout value legible startsRest inside
        have stops := stops_entryLines rest words.2 (fun others => illegible ⟨short, legible, others⟩) startsLine
          (streamEnd_not_mem_append (streamEnd_not_mem_tokens value) noEnd) rests
        exact stops.of_scans (keyed.trans first)
      · exact (stops_layout value words.1 legible startsRest inside noEnd).of_scans keyed
    · exact stops_key short noEnd rests

end

/-- A document of words with a long key is not read to its end. -/
theorem streamEnd_not_mem_tokens_documentText {entries : List (String × Layout)} (words : entriesHaveWords entries)
    (illegible : ¬ entriesAreLegible entries) : .streamEnd ∉ tokens (documentText entries) := by
  cases entries with
  | nil => exact absurd trivial illegible
  | cons entry rest =>
    have starting : Rests (TokenState.start (entryLines 0 (entry :: rest))) 0 [] (-1) []
        (entryLines 0 (entry :: rest) ++ []) := by
      rw [List.append_nil]
      exact rests_start _
    have stops := stops_entryLines (entry :: rest) words illegible .nil List.not_mem_nil starting
    simp only [documentText, tokens, String.toList_ofList, List.isEmpty_cons, Bool.false_eq_true, if_false]
    split
    · exact stops.streamEnd_not_mem_run (Nat.lt_succ_self _)
    · exact List.not_mem_nil

/-- A document of words that is not too deep is read as its node, to its end, exactly if all its keys are short. -/
theorem ofText_documentText_eq_iff {entries : List (String × Layout)} (words : entriesHaveWords entries)
    (shallow : (Layout.mapping entries).depth ≤ maxDepth) :
    Source.ofText (documentText entries) = ⟨.mapping none (entryNodes entries), true⟩ ↔
      ∀ name ∈ entryNames entries, IsShortKey name := by
  have legible := entriesAreLegible_iff entries
  constructor
  · intro read
    have clean : (Source.ofText (documentText entries)).isClean = true := by rw [read]
    refine (legible.mp (Classical.byContradiction fun illegible => ?_)).2
    exact streamEnd_not_mem_tokens_documentText words illegible (streamEnd_mem_of_isClean clean)
  · intro short
    exact ofText_documentText (legible.mpr ⟨words, short⟩) shallow

end ClassSchema.Block
