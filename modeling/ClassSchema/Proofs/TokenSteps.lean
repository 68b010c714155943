import ClassSchema.Block.Layout
import ClassSchema.Proofs.BlockScalars
import ClassSchema.Yaml.TokenStream

/-! # Reading tokens line by line

What one step of the token reader does at the start of a line and behind a mark. A state rests before a line
when all lines above are read; the collections that these leave open are closed as the next line is met, so
what a resting state has produced is stated as if they were closed down to a column. No key that must be
one is left then, so a resting state can neither miss a key nor make one of an earlier place.
-/

namespace ClassSchema.Yaml

open Block (indentation)

section Skipping

/-- Whether a token may start with the character, so that it is no white space and no comment. -/
def StartsToken (c : Char) : Prop :=
  isBlank c = false ∧ isBreak c = false ∧ c ≠ '#' ∧ c ≠ '\ufeff'

theorem skipToToken_of_starts {c : Char} (starts : StartsToken c) (inFlow : Bool) (rest : List Char)
    (mark : Mark) (allowed : Bool) :
    skipToToken inFlow (c :: rest) mark allowed false = (⟨mark, c :: rest⟩, allowed) := by
  obtain ⟨noBlank, noBreak, noComment, noOrder⟩ := starts
  simp only [isBlank, Bool.or_eq_false_iff, beq_eq_false_iff_ne] at noBlank
  have noReturn : c ≠ '\r' := by
    rintro rfl
    cases noBreak
  rw [skipToToken]
  · simp [noBreak, noBlank, noComment, noOrder]
  · simp [noReturn]

theorem skipToToken_space (inFlow : Bool) (rest : List Char) (mark : Mark) (allowed : Bool) :
    skipToToken inFlow (' ' :: rest) mark allowed false =
      skipToToken inFlow rest (mark.forward 1) allowed false := by
  rw [skipToToken]
  · rfl
  · simp

theorem skipToToken_newline (rest : List Char) (mark : Mark) (allowed : Bool) :
    skipToToken false ('\n' :: rest) mark allowed false =
      skipToToken false rest (mark.nextLine 1) true false := by
  rw [skipToToken]
  · simp [isBreak]
  · simp

theorem skipToToken_indentation (inFlow : Bool) (spaces : Nat) (rest : List Char) (allowed : Bool) :
    ∀ mark : Mark, skipToToken inFlow (indentation spaces ++ rest) mark allowed false =
      skipToToken inFlow rest (mark.forward spaces) allowed false := by
  induction spaces with
  | zero => intro mark; rfl
  | succ spaces ih =>
    intro mark
    rw [indentation, List.replicate_succ, List.cons_append, skipToToken_space]
    exact (ih (mark.forward 1)).trans (by rw [Mark.forward_forward, Nat.add_comm])

theorem length_skipToToken_le (inFlow : Bool) (cs : List Char) (mark : Mark) (allowed inComment : Bool) :
    (skipToToken inFlow cs mark allowed inComment).1.rest.length ≤ cs.length := by
  fun_induction skipToToken inFlow cs mark allowed inComment <;> grind

end Skipping

section Closing

/-- Which tokens and indentations a state has once the collections deeper than a column are closed. -/
def Closes (column : Int) (state : TokenState) (produced : List Token) (indent : Int)
    (outer : List Int) : Prop :=
  ∃ deeper : List Int, state.indent :: state.outer = deeper ++ indent :: outer ∧
    (∀ other ∈ deeper, column < other) ∧ indent ≤ column ∧
    produced = List.replicate deeper.length .blockEnd ++ state.produced

theorem closes_of_le {column : Int} {state : TokenState} (shallow : state.indent ≤ column) :
    Closes column state state.produced state.indent state.outer :=
  ⟨[], rfl, by simp, shallow, rfl⟩

/-- Closing further closes the collection at the column as well. -/
theorem Closes.further {column further : Int} {state : TokenState} {produced : List Token} {indent next : Int}
    {outer : List Int} (closes : Closes column state produced indent (next :: outer))
    (before : further < indent) (shallow : next ≤ further) :
    Closes further state (.blockEnd :: produced) next outer := by
  obtain ⟨deeper, stack, above, below, total⟩ := closes
  refine ⟨deeper ++ [indent], by simp [stack], ?_, shallow, ?_⟩
  · intro other member
    rcases List.mem_append.mp member with deep | last
    · exact Int.lt_trans (Int.lt_of_lt_of_le before below) (above other deep)
    · rw [List.mem_singleton.mp last]
      exact before
  · rw [total, List.length_append, List.length_singleton, List.replicate_succ, List.cons_append]

theorem closeBlocks_of_closes {column : Int} {state : TokenState} {produced : List Token} {indent : Int}
    {outer : List Int} (inBlock : state.inFlow = false) (closes : Closes column state produced indent outer) :
    state.closeBlocks column = { state with produced := produced, indent := indent, outer := outer } := by
  obtain ⟨deeper, stack, above, below, rfl⟩ := closes
  have closed : (state.indent :: state.outer).takeWhile (fun other => decide (column < other)) = deeper := by
    rw [stack, List.takeWhile_append_of_pos fun other member => decide_eq_true (above other member),
      List.takeWhile_cons_of_neg (by simpa using below), List.append_nil]
  simp only [TokenState.closeBlocks, inBlock, Bool.false_eq_true, if_false, closed]
  rw [stack, List.drop_left]

end Closing

namespace TokenState

variable {state : TokenState}

theorem dropStaleKeys?_of_fresh
    (fresh : ∀ key? ∈ state.keys, ∀ key ∈ key?, isStale state.cursor.mark key = false) :
    state.dropStaleKeys? = some state := by
  have noneLost : (state.keys.any fun key => key.any fun key =>
      key.required && isStale state.cursor.mark key) = false := by
    rw [List.any_eq_false]
    rintro (_ | key) member
    · simp
    · simp [fresh _ member key rfl]
  have allKept : (state.keys.map fun key => key.filter fun key => !isStale state.cursor.mark key) =
      state.keys := by
    refine (List.map_congr_left fun key? member => ?_).trans (List.map_id _)
    cases key? with
    | none => rfl
    | some key => simp [Option.filter, fresh _ member key rfl]
  simp only [dropStaleKeys?, noneLost, allKept, Bool.false_eq_true, if_false]

theorem dropStaleKeys?_of_stale {key? : Option PossibleKey} (keys : state.keys = [key?])
    (stale : ∀ key ∈ key?, key.required = false ∧ key.mark.line < state.cursor.mark.line) :
    state.dropStaleKeys? = some { state with keys := [none] } := by
  cases key? with
  | none => simp [dropStaleKeys?, keys]
  | some key =>
    obtain ⟨optional, above⟩ := stale key rfl
    have old : isStale state.cursor.mark key = true := by simp [isStale, above]
    simp [dropStaleKeys?, keys, optional, old, Option.filter]

theorem closeBlocks_of_le {column : Int} (shallow : state.inFlow = true ∨ state.indent ≤ column) :
    state.closeBlocks column = state := by
  by_cases inside : state.inFlow = true
  · simp [closeBlocks, inside]
  · have le := shallow.resolve_left inside
    rw [closeBlocks_of_closes (by simpa using inside) (closes_of_le le)]

/-- The next token starts where white space ends, if no collection is closed and no possible key is lost. -/
theorem next?_of_skips {mark : Mark} {c : Char} {rest : List Char} {allowed : Bool}
    (skips : skipToToken state.inFlow state.cursor.rest state.cursor.mark state.keyAllowed false =
      (⟨mark, c :: rest⟩, allowed))
    (fresh : ∀ key? ∈ state.keys, ∀ key ∈ key?, isStale mark key = false)
    (shallow : state.inFlow = true ∨ state.indent ≤ mark.column) :
    state.next? = { state with cursor := ⟨mark, c :: rest⟩, keyAllowed := allowed }.pushTokenAt? c rest := by
  have kept := @dropStaleKeys?_of_fresh
    { state with cursor := ⟨mark, c :: rest⟩, keyAllowed := allowed } fresh
  have unclosed := @closeBlocks_of_le
    { state with cursor := ⟨mark, c :: rest⟩, keyAllowed := allowed } _ shallow
  simp only [next?, skips, Option.bind_eq_bind, kept, Option.bind_some, Cursor.column, unclosed]

end TokenState

section Steps

/-- One state leads to another token by token, with less text left at each. -/
inductive Scans : TokenState → TokenState → Prop
  | refl (state : TokenState) : Scans state state
  | step {state next last : TokenState} (found : state.next? = some next)
      (goesOn : next.produced.head? ≠ some .streamEnd)
      (shorter : next.cursor.rest.length < state.cursor.rest.length) (others : Scans next last) :
      Scans state last

theorem Scans.trans {state next last : TokenState} (first : Scans state next) (second : Scans next last) :
    Scans state last := by
  induction first with
  | refl => exact second
  | step found goesOn shorter _ ih => exact .step found goesOn shorter (ih second)

theorem Scans.single {state next : TokenState} (found : state.next? = some next)
    (goesOn : next.produced.head? ≠ some .streamEnd)
    (shorter : next.cursor.rest.length < state.cursor.rest.length) : Scans state next :=
  .step found goesOn shorter (.refl next)

/-- A text is read to its end if enough steps are allowed. -/
theorem Scans.run_eq {state last final : TokenState} (scans : Scans state last)
    (found : last.next? = some final) (ended : final.produced.head? = some .streamEnd) :
    ∀ {fuel : Nat}, state.cursor.rest.length < fuel → state.run fuel = final.produced.reverse := by
  induction scans with
  | refl state =>
    intro fuel enough
    obtain ⟨fuel, rfl⟩ := Nat.exists_eq_succ_of_ne_zero (Nat.ne_zero_of_lt enough)
    simp [TokenState.run, found, ended]
  | step next goesOn shorter _ ih =>
    intro fuel enough
    obtain ⟨fuel, rfl⟩ := Nat.exists_eq_succ_of_ne_zero (Nat.ne_zero_of_lt enough)
    rw [TokenState.run, next]
    simp only [beq_iff_eq, goesOn, if_false]
    exact ih found (by omega)

end Steps

section Resting

/-- A state has read everything above a text that starts with a line: what it has produced, and what it is
within, once the collections deeper than a column are closed. No possible key is left that must be one. -/
structure Rests (state : TokenState) (column : Nat) (produced : List Token) (indent : Int) (outer : List Int)
    (text : List Char) : Prop where
  skips : ∃ mark : Mark, mark.column = 0 ∧
    (∃ key?, state.keys = [key?] ∧ ∀ key ∈ key?, key.required = false ∧ key.mark.line < mark.line) ∧
    skipToToken false state.cursor.rest state.cursor.mark state.keyAllowed false =
      skipToToken false text mark true false
  closes : Closes column state produced indent outer

/-- Before a text a state rests outside all collections. -/
theorem rests_start (text : List Char) : Rests (TokenState.start text) 0 [] (-1) [] text :=
  ⟨⟨⟨0, 0, 0⟩, rfl, ⟨none, rfl, by simp⟩, rfl⟩, closes_of_le (by simp [TokenState.start])⟩

/-- What a resting state is once the white space in front of the text is skipped. -/
theorem Rests.exists_cleared {state : TokenState} {column : Nat} {produced : List Token} {indent : Int}
    {outer : List Int} {text cs : List Char} (rests : Rests state column produced indent outer text)
    (skips : ∀ mark, skipToToken false text mark true false = (⟨mark.forward column, cs⟩, true)) :
    ∃ mark : Mark, mark.column = column ∧ cs.length ≤ state.cursor.rest.length ∧
      skipToToken state.inFlow state.cursor.rest state.cursor.mark state.keyAllowed false =
        (⟨mark, cs⟩, true) ∧
      ∃ dropped, { state with cursor := ⟨mark, cs⟩, keyAllowed := true }.dropStaleKeys? = some dropped ∧
        dropped.cursor = ⟨mark, cs⟩ ∧
        dropped.closeBlocks column = ⟨⟨mark, cs⟩, produced, indent, outer, true, [none]⟩ := by
  obtain ⟨⟨mark, atStart, ⟨key?, keys, stale⟩, same⟩, closes⟩ := rests
  have inBlock : state.inFlow = false := by simp [TokenState.inFlow, keys]
  rw [skips mark] at same
  have length := length_skipToToken_le false state.cursor.rest state.cursor.mark state.keyAllowed false
  rw [same] at length
  exact ⟨mark.forward column, by simp [Mark.forward, atStart], length, inBlock ▸ same, _,
    TokenState.dropStaleKeys?_of_stale keys stale, rfl, closeBlocks_of_closes rfl closes⟩

/-- A state that rests at the column of a collection rests left of it too, as if the collection was closed. -/
theorem Rests.further {state : TokenState} {column : Nat} {produced : List Token} {indent next : Int}
    {outer : List Int} {text : List Char} (rests : Rests state column produced indent (next :: outer) text)
    {left : Nat} (before : left < indent) (shallow : next ≤ left) :
    Rests state left (.blockEnd :: produced) next outer text :=
  ⟨rests.skips, rests.closes.further before shallow⟩

/-- The next token of a resting state starts where the white space in front of the text ends. -/
theorem Rests.next?_cons {state : TokenState} {column : Nat} {produced : List Token} {indent : Int}
    {outer : List Int} {text : List Char} {c : Char} {rest : List Char}
    (rests : Rests state column produced indent outer text)
    (skips : ∀ mark, skipToToken false text mark true false = (⟨mark.forward column, c :: rest⟩, true)) :
    ∃ mark : Mark, mark.column = column ∧ rest.length < state.cursor.rest.length ∧
      state.next? =
        (TokenState.mk ⟨mark, c :: rest⟩ produced indent outer true [none]).pushTokenAt? c rest := by
  obtain ⟨mark, there, length, same, dropped, found, cursor, closed⟩ := rests.exists_cleared skips
  refine ⟨mark, there, length, ?_⟩
  simp only [TokenState.next?, same, found, Option.bind_eq_bind, Option.bind_some, cursor, Cursor.column,
    there, closed]

/-- A resting state outside all but one collection ends the text where nothing is left. -/
theorem Rests.next?_nil {state : TokenState} {produced : List Token}
    (rests : Rests state 0 produced 0 [-1] []) :
    ∃ final, state.next? = some final ∧ final.produced = .streamEnd :: .blockEnd :: produced := by
  obtain ⟨mark, there, _, same, dropped, found, cursor, closed⟩ := @Rests.exists_cleared _ _ _ _ _ _ [] rests
    fun mark => by rw [skipToToken, Mark.forward_zero]
  have final := @closeBlocks_of_closes (-1) ⟨⟨mark, []⟩, produced, 0, [-1], true, [none]⟩
    (.blockEnd :: produced) (-1) [] rfl ⟨[0], rfl, by simp, by simp, rfl⟩
  refine ⟨⟨⟨mark, []⟩, .streamEnd :: .blockEnd :: produced, -1, [], false, [none]⟩, ?_, rfl⟩
  simp only [TokenState.next?, same, found, Option.bind_eq_bind, Option.bind_some, cursor, Cursor.column,
    there, closed, TokenState.pushStreamEnd?, final]
  rfl

end Resting

section Scalars

namespace TokenState

/-- Where no key is possible yet, one is noted if it is allowed. -/
theorem noteKey?_of_none {state : TokenState} (keys : state.keys = [none]) :
    state.noteKey? = some { state with
      keys := [if state.keyAllowed then
        some ⟨state.produced.length, decide (state.indent = state.cursor.column), state.cursor.mark⟩
      else none] } := by
  have inBlock : state.inFlow = false := by simp [inFlow, keys]
  obtain ⟨cursor, produced, indent, outer, keyAllowed, _⟩ := state
  obtain rfl := keys
  cases keyAllowed with
  | false => rfl
  | true => simp [noteKey?, dropKey?, inBlock]

/-- A quote starts a scalar. -/
theorem pushTokenAt?_quote (state : TokenState) (rest : List Char) :
    state.pushTokenAt? '"' rest =
      state.pushKeyToken? ((quotedScalar? false state.cursor).map fun (text, next) =>
        (.scalar .doubleQuoted (String.ofList text), next)) := by
  simp [pushTokenAt?, atDocumentMark]

/-- A plain word starts a scalar. -/
theorem pushTokenAt?_word (state : TokenState) {c : Char} {rest : List Char} (word : PlainWord (c :: rest))
    (after : List Char) : state.pushTokenAt? c (rest ++ after) = state.pushPlainScalar? := by
  have allowed := (List.forall_mem_cons.mp word.areAllowed).1
  have ne (other : Char) := @ne_of_isPlainChar c other allowed
  have noMark := word.noDocumentMark after
  obtain ⟨noBreak, noBlank⟩ := noSpace_of_isPlainChar allowed
  rw [List.cons_append] at noMark
  have noEntry : (c == '-' && atBlankOrEnd (rest ++ after)) = false := by
    cases word with
    | word starts _ => simp [ne_of_startsWord starts (show startsWord '-' = false from rfl)]
    | negative starts _ =>
      obtain ⟨noBreak, noBlank⟩ := noSpace_of_isPlainChar (isPlainChar_of_startsWord starts)
      simp [atBlankOrEnd, noBreak, noBlank]
  have starts : state.startsPlain c (rest ++ after) = true := by
    cases word with
    | word starts _ =>
      have noIndicator : "-?:,[]\x7b\x7d#&*!|>'\"%@\x60".toList.contains c = false := by
        have strange : "-?:,[]\x7b\x7d#&*!|>'\"%@\x60".toList.all (fun other => !startsWord other) =
          true := rfl
        rw [← Bool.not_eq_true, List.contains_iff_mem]
        intro member
        have refused := List.all_eq_true.mp strange c member
        rw [starts] at refused
        cases refused
      simp only [startsPlain, noBlank, noBreak, noIndicator, Bool.or_self, Bool.not_false, Bool.true_or]
    | negative starts _ =>
      obtain ⟨_, noBlank⟩ := noSpace_of_isPlainChar (isPlainChar_of_startsWord starts)
      simp [startsPlain, noBlank]
  simp [pushTokenAt?, noMark, noEntry, starts, ne '%' rfl, ne '[' rfl, ne ']' rfl, ne '\x7b' rfl,
    ne '\x7d' rfl, ne ',' rfl, ne '?' rfl, ne ':' rfl, ne '*' rfl, ne '&' rfl, ne '!' rfl, ne '|' rfl,
    ne '>' rfl, ne '\'' rfl, ne '"' rfl]

end TokenState

theorem startsToken_of_isPlainChar {c : Char} (allowed : isPlainChar c = true) : StartsToken c := by
  obtain ⟨noBreak, noBlank⟩ := noSpace_of_isPlainChar allowed
  exact ⟨noBlank, noBreak, ne_of_isPlainChar allowed rfl, ne_of_isPlainChar allowed rfl⟩

theorem plainWord_of_isBareKey {name : String} (bare : Block.isBareKey name = true) :
    PlainWord name.toList := by
  unfold Block.isBareKey at bare
  split at bare
  · cases bare
  · rename_i first rest same
    rw [same]
    simp only [Bool.and_eq_true, Bool.or_eq_true, List.all_eq_true] at bare
    obtain ⟨starts, others⟩ := bare
    apply PlainWord.word
    · rw [startsWord, Char.isAlphanum, Bool.or_eq_true, Bool.or_eq_true]
      exact starts.imp_left .inl
    · intro c member
      simp only [isPlainChar, Bool.or_eq_true]
      exact .inl (.inl (others c member))

/-- How a name is written as a key. -/
def keyStyle (name : String) : Style :=
  if Block.isBareKey name then .plain else .doubleQuoted

/-- A key is read up to its colon, and the place where it starts is remembered. -/
theorem pushTokenAt?_key (name : String) {after : List Char} (alone : atBlankOrEnd after = true) :
    ∃ first others, Block.key name = first :: others ∧ StartsToken first ∧ ∀ mark produced indent outer,
      (TokenState.mk ⟨mark, first :: (others ++ ':' :: after)⟩ produced indent outer true
          [none]).pushTokenAt? first (others ++ ':' :: after) =
        some ⟨⟨mark.forward (Block.key name).length, ':' :: after⟩, .scalar (keyStyle name) name :: produced,
          indent, outer, false, [some ⟨produced.length, decide (indent = mark.column), mark⟩]⟩ := by
  cases bare : Block.isBareKey name with
  | true =>
    have word := plainWord_of_isBareKey bare
    have written : Block.key name = name.toList := by simp [Block.key, bare]
    have read (indent : Int) := plainScalar?_of_word word indent (':' :: after)
    simp only [plainRest?_colon alone, List.reverse_reverse] at read
    obtain ⟨first, others, split⟩ := word.exists_cons
    rw [split] at word
    simp only [split] at read
    have allowed := (List.forall_mem_cons.mp word.areAllowed).1
    refine ⟨first, others, written.trans split, startsToken_of_isPlainChar allowed, ?_⟩
    intro mark produced indent outer
    rw [TokenState.pushTokenAt?_word _ word, TokenState.pushPlainScalar?, TokenState.noteKey?_of_none rfl]
    simp only [List.cons_append] at read
    simp only [Option.bind_eq_bind, Option.bind_some, TokenState.inFlow, List.length_singleton, Nat.lt_irrefl,
      decide_false, read, if_true, Cursor.column, written, keyStyle, bare]
    rw [← split, String.ofList_toList]
    rfl
  | false =>
    have written : Block.key name = Block.quote name := by simp [Block.key, bare]
    have read := quotedScalar?_quote name (':' :: after)
    rw [← written] at read
    obtain ⟨others, split⟩ : ∃ others, Block.key name = '"' :: others := ⟨_, written⟩
    refine ⟨'"', others, split, by simp [StartsToken, isBlank, isBreak], ?_⟩
    intro mark produced indent outer
    rw [TokenState.pushTokenAt?_quote, TokenState.pushKeyToken?, TokenState.noteKey?_of_none rfl]
    simp only [split, List.cons_append] at read
    simp only [Option.bind_eq_bind, Option.bind_some, read, Option.map_some, String.ofList_toList, if_true,
      Cursor.column, keyStyle, bare, split]
    rfl

end Scalars

section Marks

/-- The token that opens a collection at a column, unless one is open there. -/
def opening (token : Token) (column indent : Int) : List Token :=
  if indent < column then [token] else []

/-- The indentations around a collection that is open at a column. -/
def around (column indent : Int) (outer : List Int) : List Int :=
  if indent < column then indent :: outer else outer

/-- The colon behind a key makes a key of the place that was remembered. -/
theorem pushTokenAt?_colon {after : List Char} (alone : atBlankOrEnd after = true) (mark start : Mark)
    (scalar : Token) (produced : List Token) {indent : Int} (outer : List Int) (required : Bool)
    (shallow : indent ≤ start.column) :
    (TokenState.mk ⟨mark, ':' :: after⟩ (scalar :: produced) indent outer false
        [some ⟨produced.length, required, start⟩]).pushTokenAt? ':' after =
      some ⟨⟨mark.forward 1, after⟩,
        .value :: scalar :: .key :: (opening .blockMappingStart start.column indent ++ produced),
        start.column, around start.column indent outer, false, [none]⟩ := by
  have one : produced.length + 1 - produced.length = 1 := by omega
  have two : produced.length + 1 + 1 - produced.length = 2 := by omega
  by_cases opens : indent < start.column
  · simp [TokenState.pushTokenAt?, TokenState.standsAlone, TokenState.inFlow, atDocumentMark, alone,
      TokenState.pushValue?, TokenState.insertAfter, TokenState.openBlock, TokenState.push, TokenState.advance,
      Cursor.skipMany, opening, around, opens, one, two]
  · obtain rfl : indent = start.column := by omega
    simp [TokenState.pushTokenAt?, TokenState.standsAlone, TokenState.inFlow, atDocumentMark, alone,
      TokenState.pushValue?, TokenState.insertAfter, TokenState.openBlock, TokenState.push, TokenState.advance,
      Cursor.skipMany, opening, around, one]

/-- A key is read at the start of a line up to its colon, and the place where it starts is remembered. -/
theorem Rests.scans_name {state : TokenState} {column : Nat} {produced : List Token} {indent : Int}
    {outer : List Int} {name : String} {after : List Char}
    (rests : Rests state column produced indent outer (indentation column ++ (Block.key name ++ ':' :: after)))
    (alone : atBlankOrEnd after = true) :
    ∃ mark : Mark, mark.column = column ∧ Scans state ⟨⟨mark.forward (Block.key name).length, ':' :: after⟩,
      .scalar (keyStyle name) name :: produced, indent, outer, false,
      [some ⟨produced.length, decide (indent = mark.column), mark⟩]⟩ := by
  obtain ⟨first, others, split, starts, read⟩ := pushTokenAt?_key name alone
  obtain ⟨mark, there, length, found⟩ := @Rests.next?_cons _ _ _ _ _ _ first (others ++ ':' :: after) rests
    fun mark => by rw [skipToToken_indentation, split, List.cons_append, skipToToken_of_starts starts]
  rw [read] at found
  refine ⟨mark, there, .single found (by simp) ?_⟩
  exact Nat.lt_of_le_of_lt (by simp) length

/-- A key and its colon are read at the start of a line, and open a mapping there unless one is open. -/
theorem Rests.scans_key {state : TokenState} {column : Nat} {produced : List Token} {indent : Int}
    {outer : List Int} {name : String} {after : List Char}
    (rests : Rests state column produced indent outer (indentation column ++ (Block.key name ++ ':' :: after)))
    (alone : atBlankOrEnd after = true) (short : (Block.key name).length ≤ 1024) :
    ∃ mark : Mark, column < mark.column ∧ Scans state ⟨⟨mark, after⟩,
      .value :: .scalar (keyStyle name) name :: .key :: (opening .blockMappingStart column indent ++ produced),
      column, around column indent outer, false, [none]⟩ := by
  obtain ⟨_, _, _, shallow, _⟩ := rests.closes
  obtain ⟨mark, there, scanned⟩ := rests.scans_name alone
  subst there
  have spaceless : StartsToken ':' := by simp [StartsToken, isBlank, isBreak]
  have near : TokenState.isStale (mark.forward (Block.key name).length)
      ⟨produced.length, decide (indent = mark.column), mark⟩ = false := by
    simp [TokenState.isStale, Mark.forward, short]
  have colon := @TokenState.next?_of_skips ⟨⟨mark.forward (Block.key name).length, ':' :: after⟩,
      .scalar (keyStyle name) name :: produced, indent, outer, false,
      [some ⟨produced.length, decide (indent = mark.column), mark⟩]⟩ _ _ _ _
    (skipToToken_of_starts spaceless false after (mark.forward (Block.key name).length) false)
    (by simpa using near) (.inr (by simp only [Mark.forward]; omega))
  rw [pushTokenAt?_colon alone _ _ _ _ _ _ shallow] at colon
  refine ⟨(mark.forward (Block.key name).length).forward 1, ?_,
    scanned.trans (.single colon (by simp) (Nat.lt_succ_self _))⟩
  simp only [Mark.forward]
  omega

/-- A hyphen is read at the start of a line, and opens a sequence there unless one is open. -/
theorem Rests.scans_hyphen {state : TokenState} {column : Nat} {produced : List Token} {indent : Int}
    {outer : List Int} {after : List Char}
    (rests : Rests state column produced indent outer (indentation column ++ '-' :: after))
    (alone : atBlankOrEnd after = true) :
    ∃ mark : Mark, column < mark.column ∧ Scans state ⟨⟨mark, after⟩,
      .blockEntry :: (opening .blockSequenceStart column indent ++ produced), column,
      around column indent outer, true, [none]⟩ := by
  obtain ⟨_, _, _, shallow, _⟩ := rests.closes
  have spaceless : StartsToken '-' := by simp [StartsToken, isBlank, isBreak]
  have noMark : atDocumentMark ('-' :: after) = false := by
    cases after with
    | nil => rfl
    | cons c rest =>
      have noHyphen : c ≠ '-' := by
        rintro rfl
        cases alone
      simp [atDocumentMark, noHyphen]
  obtain ⟨mark, there, length, found⟩ := @Rests.next?_cons _ _ _ _ _ _ '-' after rests
    fun mark => by rw [skipToToken_indentation, skipToToken_of_starts spaceless]
  subst there
  have pushed : (TokenState.mk ⟨mark, '-' :: after⟩ produced indent outer true [none]).pushTokenAt? '-' after =
      some ⟨⟨mark.forward 1, after⟩,
        .blockEntry :: (opening .blockSequenceStart mark.column indent ++ produced), mark.column,
        around mark.column indent outer, true, [none]⟩ := by
    by_cases opens : indent < mark.column
    · simp [TokenState.pushTokenAt?, noMark, alone, TokenState.pushBlockEntry?, TokenState.openBlock,
        TokenState.inFlow, Cursor.column, TokenState.insertAfter, TokenState.dropKey?, TokenState.push,
        TokenState.advance, Cursor.skipMany, opening, around, opens]
    · obtain rfl : indent = mark.column := by omega
      simp [TokenState.pushTokenAt?, noMark, alone, TokenState.pushBlockEntry?, TokenState.openBlock,
        TokenState.inFlow, Cursor.column, TokenState.dropKey?, TokenState.push, TokenState.advance,
        Cursor.skipMany, opening, around]
  rw [pushed] at found
  exact ⟨mark.forward 1, Nat.lt_succ_self _, .single found (by simp) length⟩

end Marks

section Values

/-- Whether a text is empty or starts, behind an indentation of at most a column, with a token. -/
inductive StartsLine (column : Nat) : List Char → Prop
  | nil : StartsLine column []
  | cons {spaces : Nat} {c : Char} {rest : List Char} (shallow : spaces ≤ column) (starts : StartsToken c) :
      StartsLine column (indentation spaces ++ c :: rest)

theorem StartsLine.mono {column further : Nat} {text : List Char} (startsLine : StartsLine column text)
    (le : column ≤ further) : StartsLine further text := by
  cases startsLine with
  | nil => exact .nil
  | cons shallow starts => exact .cons (Nat.le_trans shallow le) starts

/-- Before a break a state rests at every column that is not left of the collection around. -/
theorem rests_newline {mark : Mark} {text : List Char} {produced : List Token} {indent : Int}
    {outer : List Int} {allowed : Bool} {key? : Option PossibleKey} {column : Nat}
    (optional : ∀ key ∈ key?, key.required = false ∧ key.mark.line = mark.line) (shallow : indent ≤ column) :
    Rests ⟨⟨mark, '\n' :: text⟩, produced, indent, outer, allowed, [key?]⟩ column produced indent outer
      text where
  skips := by
    refine ⟨mark.nextLine 1, rfl, ⟨key?, rfl, ?_⟩, skipToToken_newline text mark allowed⟩
    intro key found
    obtain ⟨notRequired, same⟩ := optional key found
    exact ⟨notRequired, by rw [same]; exact Nat.lt_succ_self _⟩
  closes := closes_of_le shallow

variable {column : Nat} {mark : Mark} {produced : List Token} {outer : List Int} {allowed : Bool}
  {text : List Char}

/-- Behind a space, the next token starts in the collection around. -/
theorem next?_space {c : Char} {rest : List Char} (starts : StartsToken c) (inside : column < mark.column) :
    (TokenState.mk ⟨mark, ' ' :: c :: rest⟩ produced column outer allowed [none]).next? =
      (TokenState.mk ⟨mark.forward 1, c :: rest⟩ produced column outer allowed [none]).pushTokenAt? c
        rest := by
  refine TokenState.next?_of_skips ?_ (by simp) (.inr ?_)
  · apply (skipToToken_space false (c :: rest) mark allowed).trans
    exact skipToToken_of_starts starts false rest _ allowed
  · simp only [Mark.forward]
    omega

/-- Right of the collection around, what is noted as a possible key need not be one. -/
theorem exists_noteKey? (inside : column < mark.column) (cs : List Char) :
    ∃ key?, (∀ key ∈ key?, key.required = false ∧ key.mark = mark) ∧
      (TokenState.mk ⟨mark, cs⟩ produced column outer allowed [none]).noteKey? =
        some ⟨⟨mark, cs⟩, produced, column, outer, allowed, [key?]⟩ := by
  have other : (column : Int) ≠ mark.column := by omega
  refine ⟨_, ?_, TokenState.noteKey?_of_none rfl⟩
  intro key found
  simp only [Option.mem_def, Option.ite_none_right_eq_some, Option.some.injEq] at found
  obtain ⟨_, rfl⟩ := found
  exact ⟨decide_eq_false other, rfl⟩

/-- A quoted text is read behind a mark. -/
theorem scans_quoted (value : String) (inside : column < mark.column) :
    ∃ last, Scans ⟨⟨mark, ' ' :: (Block.quote value ++ '\n' :: text)⟩, produced, column, outer, allowed,
        [none]⟩ last ∧
      Rests last column (.scalar .doubleQuoted value :: produced) column outer text := by
  have starts : StartsToken '"' := by simp [StartsToken, isBlank, isBreak]
  obtain ⟨others, split⟩ : ∃ others, Block.quote value = '"' :: others := ⟨_, rfl⟩
  have read := quotedScalar?_quote value ('\n' :: text) (mark.forward 1)
  rw [split, List.cons_append] at read ⊢
  have further : column < (mark.forward 1).column := Nat.lt_succ_of_lt inside
  obtain ⟨key?, optional, noted⟩ :=
    @exists_noteKey? column _ produced outer allowed further ('"' :: (others ++ '\n' :: text))
  have found : (TokenState.mk ⟨mark, ' ' :: '"' :: (others ++ '\n' :: text)⟩ produced column outer allowed
      [none]).next? = some ⟨⟨(mark.forward 1).forward ('"' :: others).length, '\n' :: text⟩,
        .scalar .doubleQuoted value :: produced, column, outer, false, [key?]⟩ := by
    rw [next?_space starts inside, TokenState.pushTokenAt?_quote, read, TokenState.pushKeyToken?, noted]
    simp only [Option.map_some, String.ofList_toList]
    rfl
  refine ⟨_, .single found (by simp) ?_, rests_newline ?_ (Int.le_refl _)⟩
  · simp only [List.length_cons, List.length_append]
    omega
  · intro key member
    obtain ⟨notRequired, same⟩ := optional key member
    exact ⟨notRequired, by rw [same]; rfl⟩

theorem plainRest?_indentation {gap : Gap} (broken : gap.broken = true) (indent : Int) (spaces : Nat)
    (rest word : List Char) : ∀ mark : Mark,
      plainRest? false indent (indentation spaces ++ rest) mark word gap false =
        plainRest? false indent rest (mark.forward spaces) word gap false := by
  induction spaces with
  | zero => intro mark; rfl
  | succ spaces ih =>
    intro mark
    have step : plainRest? false indent (' ' :: (indentation spaces ++ rest)) mark word gap false =
        plainRest? false indent (indentation spaces ++ rest) (mark.forward 1) word gap false := by
      rw [plainRest?]
      · simp [isBreak, isBlank, Gap.addBlank, broken]
      · simp
    exact step.trans ((ih (mark.forward 1)).trans (by rw [Mark.forward_forward, Nat.add_comm]))

/-- The break behind a plain word ends it, as the next line is not deeper than the collection around. -/
theorem exists_plainRest?_newline (startsLine : StartsLine column text) (mark : Mark) {word : List Char}
    (nonempty : word ≠ []) :
    ∃ cursor, plainRest? false (column + 1) ('\n' :: text) mark word Gap.none true =
        some (word.reverse, true, cursor) ∧
      cursor.rest.length ≤ text.length ∧
      skipToToken false cursor.rest cursor.mark true false =
        skipToToken false text (mark.nextLine 1) true false := by
  have broken : (Gap.none.addBreak '\n').broken = true := rfl
  have line : plainRest? false (column + 1) ('\n' :: text) mark word Gap.none true =
      plainRest? false (column + 1) text (mark.nextLine 1) word (Gap.none.addBreak '\n') false := by
    rw [plainRest?]
    · simp [isBreak]
    · simp
  rw [line]
  cases startsLine with
  | nil => exact ⟨⟨mark.nextLine 1, []⟩, rfl, Nat.le_refl _, rfl⟩
  | @cons spaces c rest shallow starts =>
    obtain ⟨noBlank, noBreak, _, _⟩ := id starts
    have noReturn : c ≠ '\r' := by
      rintro rfl
      cases noBreak
    refine ⟨⟨(mark.nextLine 1).forward spaces, c :: rest⟩, ?_, by simp, ?_⟩
    · have left : ((mark.nextLine 1).forward spaces).column < column + 1 := by
        simp only [Mark.forward, Mark.nextLine]
        omega
      have left : (((mark.nextLine 1).forward spaces).column : Int) < column + 1 := by omega
      rw [plainRest?_indentation broken, plainRest?]
      · simp [noBreak, noBlank, endsBeforeWord, nonempty, left, broken]
      · simp [noReturn]
    · rw [skipToToken_indentation]

/-- A plain word is read behind a mark. -/
theorem scans_plain {cs : List Char} (word : PlainWord cs) (startsLine : StartsLine column text)
    (inside : column < mark.column) :
    ∃ last, Scans ⟨⟨mark, ' ' :: (cs ++ '\n' :: text)⟩, produced, column, outer, allowed, [none]⟩ last ∧
      Rests last column (.scalar .plain (String.ofList cs) :: produced) column outer text := by
  obtain ⟨first, others, rfl⟩ := word.exists_cons
  have starts := startsToken_of_isPlainChar (List.forall_mem_cons.mp word.areAllowed).1
  have further : column < (mark.forward 1).column := Nat.lt_succ_of_lt inside
  obtain ⟨key?, optional, noted⟩ :=
    @exists_noteKey? column _ produced outer allowed further (first :: others ++ '\n' :: text)
  obtain ⟨cursor, ended, length, skips⟩ := exists_plainRest?_newline startsLine
    ((mark.forward 1).forward (first :: others).length) (show (first :: others).reverse ≠ [] by simp)
  have read := plainScalar?_of_word word column ('\n' :: text) (mark.forward 1)
  rw [ended, List.reverse_reverse] at read
  have found : (TokenState.mk ⟨mark, ' ' :: (first :: others ++ '\n' :: text)⟩ produced column outer allowed
      [none]).next? = some ⟨cursor, .scalar .plain (String.ofList (first :: others)) :: produced, column,
        outer, true, [key?]⟩ := by
    rw [List.cons_append] at noted read ⊢
    rw [next?_space starts inside, TokenState.pushTokenAt?_word _ word, TokenState.pushPlainScalar?, noted]
    simp only [Option.bind_eq_bind, Option.bind_some, TokenState.inFlow, List.length_singleton, Nat.lt_irrefl,
      decide_false, read]
    rfl
  refine ⟨_, .single found (by simp) ?_, ⟨_, rfl, ⟨key?, rfl, ?_⟩, skips⟩, closes_of_le (Int.le_refl _)⟩
  · simp only [List.length_cons, List.length_append]
    omega
  · intro key member
    obtain ⟨notRequired, same⟩ := optional key member
    exact ⟨notRequired, by rw [same]; exact Nat.lt_succ_self _⟩

/-- The brackets and braces of empty collections with their tokens. -/
inductive Brackets : Char → Char → Token → Token → Prop
  | square : Brackets '[' ']' .flowSequenceStart .flowSequenceEnd
  | curly : Brackets '\x7b' '\x7d' .flowMappingStart .flowMappingEnd

theorem Brackets.pushTokenAt? {opener closer : Char} {first second : Token}
    (brackets : Brackets opener closer first second) (state : TokenState) (rest : List Char) :
    state.pushTokenAt? opener rest = state.pushFlowStart? first ∧
      state.pushTokenAt? closer rest = state.pushFlowEnd? second := by
  cases brackets <;> simp [TokenState.pushTokenAt?, atDocumentMark]

theorem Brackets.starts {opener closer : Char} {first second : Token}
    (brackets : Brackets opener closer first second) :
    StartsToken opener ∧ StartsToken closer ∧ first ≠ .streamEnd ∧ second ≠ .streamEnd := by
  cases brackets <;> simp [StartsToken, isBlank, isBreak]

/-- An empty collection is read behind a mark. -/
theorem scans_empty {opener closer : Char} {first second : Token}
    (brackets : Brackets opener closer first second) (inside : column < mark.column) :
    ∃ last, Scans ⟨⟨mark, ' ' :: opener :: closer :: '\n' :: text⟩, produced, column, outer, allowed,
        [none]⟩ last ∧
      Rests last column (second :: first :: produced) column outer text := by
  obtain ⟨startsOpener, startsCloser, notEnd, notEnd'⟩ := brackets.starts
  have further : column < (mark.forward 1).column := Nat.lt_succ_of_lt inside
  obtain ⟨key?, optional, noted⟩ :=
    @exists_noteKey? column _ produced outer allowed further (opener :: closer :: '\n' :: text)
  let within : TokenState := ⟨⟨(mark.forward 1).forward 1, closer :: '\n' :: text⟩, first :: produced, column,
    outer, true, [none, key?]⟩
  have opened : (TokenState.mk ⟨mark, ' ' :: opener :: closer :: '\n' :: text⟩ produced column outer allowed
      [none]).next? = some within := by
    rw [next?_space startsOpener inside, (brackets.pushTokenAt? _ _).1, TokenState.pushFlowStart?, noted]
    rfl
  have closed : within.next? = some ⟨⟨((mark.forward 1).forward 1).forward 1, '\n' :: text⟩,
      second :: first :: produced, column, outer, false, [key?]⟩ := by
    rw [TokenState.next?_of_skips (skipToToken_of_starts startsCloser _ _ _ _) ?_ (.inl rfl),
      (brackets.pushTokenAt? _ _).2]
    · rfl
    · intro noted? member key found
      rcases List.mem_cons.mp member with rfl | member
      · cases found
      · rw [List.mem_singleton.mp member] at found
        simp [within, TokenState.isStale, (optional key found).2, Mark.forward]
  refine ⟨_, .step opened (by simpa [within] using notEnd) ?_ (.single closed (by simpa using notEnd') ?_),
    rests_newline ?_ (Int.le_refl _)⟩
  · simp [within]
  · exact Nat.lt_succ_self _
  · intro key member
    obtain ⟨notRequired, same⟩ := optional key member
    exact ⟨notRequired, by rw [same]; rfl⟩

end Values

end ClassSchema.Yaml
