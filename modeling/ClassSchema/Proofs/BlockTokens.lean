import ClassSchema.Proofs.TokenSteps

/-! # The tokens of block text

The lines of a layout are read as its tokens, whatever layout it is, as long as what stands plainly is a
word and keys are short. Collections are opened by their first line and closed by the first line that is
less deep.
-/

namespace ClassSchema.Block

open Yaml

mutual

/-- The tokens of a layout. -/
def Layout.tokens : Layout → List Token
  | .plain text => [.scalar .plain text]
  | .quoted text => [.scalar .doubleQuoted text]
  | .sequence [] => [.flowSequenceStart, .flowSequenceEnd]
  | .sequence (item :: rest) => .blockSequenceStart :: (itemTokens (item :: rest) ++ [.blockEnd])
  | .mapping [] => [.flowMappingStart, .flowMappingEnd]
  | .mapping (entry :: rest) => .blockMappingStart :: (entryTokens (entry :: rest) ++ [.blockEnd])

/-- The tokens of items. -/
def itemTokens : List Layout → List Token
  | [] => []
  | item :: rest => .blockEntry :: (item.tokens ++ itemTokens rest)

/-- The tokens of entries. -/
def entryTokens : List (String × Layout) → List Token
  | [] => []
  | (name, value) :: rest =>
    .key :: .scalar (keyStyle name) name :: .value :: (value.tokens ++ entryTokens rest)

end

mutual

/-- Whether a layout is read back: what stands plainly is a word, and keys are short. -/
def Layout.IsLegible : Layout → Prop
  | .plain text => PlainWord text.toList
  | .quoted _ => True
  | .sequence items => itemsAreLegible items
  | .mapping entries => entriesAreLegible entries

/-- Whether items are read back. -/
def itemsAreLegible : List Layout → Prop
  | [] => True
  | item :: rest => item.IsLegible ∧ itemsAreLegible rest

/-- Whether entries are read back. -/
def entriesAreLegible : List (String × Layout) → Prop
  | [] => True
  | (name, value) :: rest => (key name).length ≤ 1024 ∧ value.IsLegible ∧ entriesAreLegible rest

end

theorem startsLine_itemLines (column : Nat) (items : List Layout) {text : List Char}
    (startsLine : StartsLine column text) : StartsLine column (itemLines column items ++ text) := by
  cases items with
  | nil => exact startsLine
  | cons item rest =>
    rw [itemLines, List.append_assoc, List.append_assoc]
    exact .cons (Nat.le_refl _) (by simp [StartsToken, isBlank, isBreak])

theorem startsLine_entryLines (column : Nat) (entries : List (String × Layout)) {text : List Char}
    (startsLine : StartsLine column text) : StartsLine column (entryLines column entries ++ text) := by
  cases entries with
  | nil => exact startsLine
  | cons entry rest =>
    obtain ⟨name, value⟩ := entry
    obtain ⟨first, others, split, starts, _⟩ := @pushTokenAt?_key name [] rfl
    rw [entryLines, split, List.append_assoc, List.append_assoc, List.append_assoc]
    exact .cons (Nat.le_refl _) starts

theorem atBlankOrEnd_afterMark (column : Nat) (layout : Layout) (text : List Char) :
    atBlankOrEnd (layout.afterMark column ++ text) = true := by
  cases layout with
  | sequence items => cases items <;> rfl
  | mapping entries => cases entries <;> rfl
  | _ => rfl

theorem opening_of_lt (token : Token) {column indent : Int} (outer : List Int) (opens : indent < column) :
    opening token column indent = [token] ∧ around column indent outer = indent :: outer :=
  ⟨if_pos opens, if_pos opens⟩

theorem opening_self (token : Token) (column : Int) (outer : List Int) :
    opening token column column = [] ∧ around column column outer = outer :=
  ⟨if_neg (Int.lt_irrefl _), if_neg (Int.lt_irrefl _)⟩

/-- The hyphen of the first of some items is read, and what follows it is left. -/
theorem scans_hyphen {state : TokenState} {column : Nat} {produced : List Token} {indent : Int}
    {outer : List Int} {item : Layout} {rest : List Layout} {text : List Char}
    (rests : Rests state column produced indent outer (itemLines column (item :: rest) ++ text)) :
    ∃ mark : Mark, column < mark.column ∧ Scans state
      ⟨⟨mark, item.afterMark column ++ (itemLines column rest ++ text)⟩,
        .blockEntry :: (opening .blockSequenceStart column indent ++ produced), column,
        around column indent outer, true, [none]⟩ := by
  rw [itemLines, List.append_assoc, List.append_assoc, List.cons_append] at rests
  exact rests.scans_hyphen (atBlankOrEnd_afterMark column item _)

/-- The key of the first of some entries is read, and what follows its colon is left. -/
theorem scans_key {state : TokenState} {column : Nat} {produced : List Token} {indent : Int}
    {outer : List Int} {name : String} {value : Layout} {rest : List (String × Layout)} {text : List Char}
    (short : (key name).length ≤ 1024)
    (rests : Rests state column produced indent outer (entryLines column ((name, value) :: rest) ++ text)) :
    ∃ mark : Mark, column < mark.column ∧ Scans state
      ⟨⟨mark, value.afterMark column ++ (entryLines column rest ++ text)⟩,
        .value :: .scalar (keyStyle name) name :: .key ::
          (opening .blockMappingStart column indent ++ produced), column,
        around column indent outer, false, [none]⟩ := by
  rw [entryLines, List.append_assoc, List.append_assoc, List.append_assoc, List.cons_append] at rests
  exact rests.scans_key (atBlankOrEnd_afterMark column value _) short

mutual

/-- What follows a mark is read as the tokens of the layout. -/
theorem scans_layout : ∀ (layout : Layout) {column : Nat} {mark : Mark} {produced : List Token}
    {outer : List Int} {allowed : Bool} {text : List Char},
    layout.IsLegible → StartsLine column text → column < mark.column →
      ∃ last, Scans ⟨⟨mark, layout.afterMark column ++ text⟩, produced, column, outer, allowed, [none]⟩ last ∧
        Rests last column (layout.tokens.reverse ++ produced) column outer text
  | .plain word, column, mark, produced, outer, allowed, text, legible, startsLine, inside => by
    have read := @scans_plain column mark produced outer allowed text _ legible startsLine inside
    rw [String.ofList_toList] at read
    simpa [Layout.afterMark, Layout.tokens] using read
  | .quoted value, column, mark, produced, outer, allowed, text, _, _, inside => by
    have read := @scans_quoted column mark produced outer allowed text value inside
    simpa [Layout.afterMark, Layout.tokens] using read
  | .sequence [], _, _, _, _, _, _, _, _, inside => scans_empty .square inside
  | .mapping [], _, _, _, _, _, _, _, _, inside => scans_empty .curly inside
  | .sequence (item :: rest), column, mark, produced, outer, allowed, text, legible, startsLine, _ => by
    have deeper : (column : Int) < (column + 2 : Nat) := by omega
    have startsLine := startsLine.mono (Nat.le_add_right column 2)
    have rests := @rests_newline mark (itemLines (column + 2) (item :: rest) ++ text) produced column outer
      allowed none (column + 2) (by simp) (Int.le_of_lt deeper)
    obtain ⟨opens, within⟩ := opening_of_lt .blockSequenceStart outer deeper
    obtain ⟨_, inside, hyphen⟩ := scans_hyphen rests
    rw [opens, within] at hyphen
    obtain ⟨_, first, rests⟩ := scans_layout item legible.1 (startsLine_itemLines _ rest startsLine) inside
    obtain ⟨last, others, rests⟩ := scans_itemLines rest legible.2 startsLine rests
    refine ⟨last, hyphen.trans (first.trans others), ?_⟩
    simpa [Layout.tokens, itemTokens] using rests.further deeper (Int.le_refl _)
  | .mapping ((name, value) :: rest), column, mark, produced, outer, allowed, text, legible, startsLine, _ => by
    have deeper : (column : Int) < (column + 2 : Nat) := by omega
    have startsLine := startsLine.mono (Nat.le_add_right column 2)
    have rests := @rests_newline mark (entryLines (column + 2) ((name, value) :: rest) ++ text) produced
      column outer allowed none (column + 2) (by simp) (Int.le_of_lt deeper)
    obtain ⟨opens, within⟩ := opening_of_lt .blockMappingStart outer deeper
    obtain ⟨_, inside, keyed⟩ := scans_key legible.1 rests
    rw [opens, within] at keyed
    obtain ⟨_, first, rests⟩ := scans_layout value legible.2.1 (startsLine_entryLines _ rest startsLine) inside
    obtain ⟨last, others, rests⟩ := scans_entryLines rest legible.2.2 startsLine rests
    refine ⟨last, keyed.trans (first.trans others), ?_⟩
    simpa [Layout.tokens, entryTokens] using rests.further deeper (Int.le_refl _)

/-- The lines of items in an open sequence are read as their tokens. -/
theorem scans_itemLines : ∀ (items : List Layout) {state : TokenState} {column : Nat} {produced : List Token}
    {outer : List Int} {text : List Char}, itemsAreLegible items → StartsLine column text →
      Rests state column produced column outer (itemLines column items ++ text) →
        ∃ last, Scans state last ∧
          Rests last column ((itemTokens items).reverse ++ produced) column outer text
  | [], state, _, _, _, _, _, _, rests => ⟨state, .refl state, rests⟩
  | item :: rest, state, column, produced, outer, text, legible, startsLine, rests => by
    obtain ⟨opens, within⟩ := opening_self .blockSequenceStart column outer
    obtain ⟨_, inside, hyphen⟩ := scans_hyphen rests
    rw [opens, within] at hyphen
    obtain ⟨_, first, rests⟩ := scans_layout item legible.1 (startsLine_itemLines _ rest startsLine) inside
    obtain ⟨last, others, rests⟩ := scans_itemLines rest legible.2 startsLine rests
    refine ⟨last, hyphen.trans (first.trans others), ?_⟩
    simpa [itemTokens] using rests

/-- The lines of entries in an open mapping are read as their tokens. -/
theorem scans_entryLines : ∀ (entries : List (String × Layout)) {state : TokenState} {column : Nat}
    {produced : List Token} {outer : List Int} {text : List Char},
    entriesAreLegible entries → StartsLine column text →
      Rests state column produced column outer (entryLines column entries ++ text) →
        ∃ last, Scans state last ∧
          Rests last column ((entryTokens entries).reverse ++ produced) column outer text
  | [], state, _, _, _, _, _, _, rests => ⟨state, .refl state, rests⟩
  | (name, value) :: rest, state, column, produced, outer, text, legible, startsLine, rests => by
    obtain ⟨opens, within⟩ := opening_self .blockMappingStart column outer
    obtain ⟨_, inside, keyed⟩ := scans_key legible.1 rests
    rw [opens, within] at keyed
    obtain ⟨_, first, rests⟩ := scans_layout value legible.2.1 (startsLine_entryLines _ rest startsLine) inside
    obtain ⟨last, others, rests⟩ := scans_entryLines rest legible.2.2 startsLine rests
    refine ⟨last, keyed.trans (first.trans others), ?_⟩
    simpa [entryTokens] using rests

end

theorem isReadable_of_mem_key {name : String} {c : Char} (member : c ∈ key name) : isReadable c = true := by
  unfold key at member
  split at member
  · rename_i bare
    exact isReadable_of_isPlainChar ((plainWord_of_isBareKey bare).areAllowed c member)
  · exact isReadable_of_mem_quote member

theorem isReadable_of_mem_indentation {column : Nat} {c : Char} (member : c ∈ indentation column) :
    isReadable c = true := by
  rw [List.eq_of_mem_replicate member]
  rfl

mutual

/-- What is written for a legible layout are characters that YAML text may hold. -/
theorem areReadable_afterMark : ∀ (layout : Layout) (column : Nat), layout.IsLegible →
    ∀ c ∈ layout.afterMark column, isReadable c = true
  | .plain text, _, legible, c, member => by
    simp only [Layout.afterMark, List.mem_append, List.mem_cons, List.not_mem_nil, or_false] at member
    rcases member with (rfl | member) | rfl
    · rfl
    · exact isReadable_of_isPlainChar (legible.areAllowed c member)
    · rfl
  | .quoted text, _, _, c, member => by
    simp only [Layout.afterMark, List.mem_append, List.mem_cons, List.not_mem_nil, or_false] at member
    rcases member with (rfl | member) | rfl
    · rfl
    · exact isReadable_of_mem_quote member
    · rfl
  | .sequence [], _, _, c, member => by
    simp only [Layout.afterMark, List.mem_cons, List.not_mem_nil, or_false] at member
    rcases member with rfl | rfl | rfl | rfl <;> rfl
  | .mapping [], _, _, c, member => by
    simp only [Layout.afterMark, List.mem_cons, List.not_mem_nil, or_false] at member
    rcases member with rfl | rfl | rfl | rfl <;> rfl
  | .sequence (item :: rest), column, legible, c, member => by
    rcases List.mem_cons.mp member with rfl | member
    · rfl
    · exact areReadable_itemLines (item :: rest) (column + 2) legible c member
  | .mapping (entry :: rest), column, legible, c, member => by
    rcases List.mem_cons.mp member with rfl | member
    · rfl
    · exact areReadable_entryLines (entry :: rest) (column + 2) legible c member

theorem areReadable_itemLines : ∀ (items : List Layout) (column : Nat), itemsAreLegible items →
    ∀ c ∈ itemLines column items, isReadable c = true
  | [], _, _, _, member => by cases member
  | item :: rest, column, legible, c, member => by
    simp only [itemLines, List.mem_append, List.mem_cons] at member
    rcases member with (member | rfl | member) | member
    · exact isReadable_of_mem_indentation member
    · rfl
    · exact areReadable_afterMark item column legible.1 c member
    · exact areReadable_itemLines rest column legible.2 c member

theorem areReadable_entryLines : ∀ (entries : List (String × Layout)) (column : Nat),
    entriesAreLegible entries → ∀ c ∈ entryLines column entries, isReadable c = true
  | [], _, _, _, member => by cases member
  | (name, value) :: rest, column, legible, c, member => by
    simp only [entryLines, List.mem_append, List.mem_cons] at member
    rcases member with ((member | member) | rfl | member) | member
    · exact isReadable_of_mem_indentation member
    · exact isReadable_of_mem_key member
    · rfl
    · exact areReadable_afterMark value column legible.2.1 c member
    · exact areReadable_entryLines rest column legible.2.2 c member

end

/-- A document of legible entries is read as the tokens of the mapping that it is. -/
theorem tokens_documentText {entries : List (String × Layout)} (legible : entriesAreLegible entries) :
    tokens (documentText entries) = (Layout.mapping entries).tokens ++ [.streamEnd] := by
  cases entries with
  | nil => decide +kernel
  | cons entry rest =>
    obtain ⟨name, value⟩ := entry
    have readable : (entryLines 0 ((name, value) :: rest)).all isReadable = true :=
      List.all_eq_true.mpr (areReadable_entryLines _ 0 legible)
    have starting : Rests (TokenState.start (entryLines 0 ((name, value) :: rest))) 0 [] (-1) []
        (entryLines 0 ((name, value) :: rest) ++ []) := by
      rw [List.append_nil]
      exact rests_start _
    obtain ⟨opens, within⟩ := opening_of_lt .blockMappingStart [] (show (-1 : Int) < (0 : Nat) by omega)
    obtain ⟨_, inside, keyed⟩ := scans_key legible.1 starting
    rw [opens, within] at keyed
    obtain ⟨_, first, rests⟩ := scans_layout value legible.2.1 (startsLine_entryLines _ rest .nil) inside
    obtain ⟨last, others, rests⟩ := scans_entryLines rest legible.2.2 .nil rests
    obtain ⟨final, found, produced⟩ := rests.next?_nil
    have run := (keyed.trans (first.trans others)).run_eq found (by rw [produced]; rfl) (Nat.lt_succ_self _)
    simp only [documentText, tokens, String.toList_ofList, List.isEmpty_cons, Bool.false_eq_true, if_false,
      readable, if_true]
    rw [produced] at run
    apply run.trans
    simp [Layout.tokens, entryTokens]

end ClassSchema.Block
