import ClassSchema.Json.Reader
import ClassSchema.Json.Writer
import ClassSchema.Proofs.JsonNumbers
import ClassSchema.Proofs.Tables

/-! # JSON text

A grammar says which texts spell JSON data, with blanks wherever JSON allows them. The reader reads every
spelling that is not nested too deeply, and what both writers write is a spelling: compact text without
blanks, indented text with line breaks. So data whose numbers are kept as the reader keeps them, whose
objects repeat no key and whose first keys are not the one for numbers is read back as it was written.
-/

namespace ClassSchema.Json

section Quoted

private theorem hexNumber?_control {code : Nat} (control : code < 0x20) :
    ∃ a b c d, Text.hexDigits Text.hexDigit 4 code = [a, b, c, d] ∧
      Text.hexNumber? [a, b, c, d] = some code := by
  have each : ∀ code < 0x20, Text.hexNumber? (Text.hexDigits Text.hexDigit 4 code) = some code ∧
      (Text.hexDigits Text.hexDigit 4 code).length = 4 := by decide
  obtain ⟨read, length⟩ := each code control
  match digits : Text.hexDigits Text.hexDigit 4 code, length with
  | [a, b, c, d], _ => exact ⟨a, b, c, d, rfl, digits ▸ read⟩

/-- The letters of the short escapes that are written, with the characters that they stand for. -/
def shortEscapes : List (Char × Char) :=
  [('"', '"'), ('\\', '\\'), ('b', '\x08'), ('f', '\x0c'), ('n', '\n'), ('r', '\r'), ('t', '\t')]

/-- A character is written as a short escape, as a control's code or as itself. -/
theorem quoteChar_cases (c : Char) :
    (∃ letter, quoteChar c = ['\\', letter] ∧ (letter, c) ∈ shortEscapes) ∨
      (∃ h1 h2 h3 h4, quoteChar c = ['\\', 'u', h1, h2, h3, h4] ∧
        Text.hexNumber? [h1, h2, h3, h4] = some c.toNat ∧ c.toNat < 0x20) ∨
      quoteChar c = [c] ∧ 0x20 ≤ c.toNat ∧ c ≠ '"' ∧ c ≠ '\\' := by
  by_cases short : ∃ letter, (letter, c) ∈ shortEscapes
  · obtain ⟨letter, listed⟩ := short
    refine .inl ⟨letter, ?_, listed⟩
    simp only [shortEscapes, List.mem_cons, Prod.mk.injEq, List.not_mem_nil, or_false] at listed
    rcases listed with ⟨rfl, rfl⟩ | ⟨rfl, rfl⟩ | ⟨rfl, rfl⟩ | ⟨rfl, rfl⟩ | ⟨rfl, rfl⟩ | ⟨rfl, rfl⟩ | ⟨rfl, rfl⟩ <;>
      rfl
  · simp only [shortEscapes, List.mem_cons, Prod.mk.injEq, List.not_mem_nil, or_false, exists_or, not_or,
      exists_eq_left] at short
    obtain ⟨quote, backslash, backspace, formFeed, lineFeed, carriageReturn, tab⟩ := short
    simp only [quoteChar, quote, backslash, backspace, formFeed, lineFeed, carriageReturn, tab, if_false]
    split
    · rename_i control
      obtain ⟨h1, h2, h3, h4, digits, read⟩ := hexNumber?_control control
      exact .inr (.inl ⟨h1, h2, h3, h4, by rw [digits], read, control⟩)
    · rename_i printable
      exact .inr (.inr ⟨rfl, by omega, quote, backslash⟩)

/-- A character is read back from how it is written between quotes. -/
theorem readQuoted?_quoteChar (c : Char) (cs : List Char) :
    readQuoted? (quoteChar c ++ cs) = (readQuoted? cs).map fun (text, rest) => (c :: text, rest) := by
  obtain ⟨letter, written, short⟩ | ⟨h1, h2, h3, h4, written, read, control⟩ | ⟨written, printable, quote, backslash⟩ :=
    quoteChar_cases c
  · simp only [shortEscapes, List.mem_cons, Prod.mk.injEq, List.not_mem_nil, or_false] at short
    rw [written]
    rcases short with ⟨rfl, rfl⟩ | ⟨rfl, rfl⟩ | ⟨rfl, rfl⟩ | ⟨rfl, rfl⟩ | ⟨rfl, rfl⟩ | ⟨rfl, rfl⟩ | ⟨rfl, rfl⟩ <;>
      simp [readQuoted?, shortEscape?]
  · have low : ¬ (0xd800 ≤ c.toNat ∧ c.toNat ≤ 0xdbff) := by omega
    have high : ¬ (0xdc00 ≤ c.toNat ∧ c.toNat ≤ 0xdfff) := by omega
    rw [written]
    simp only [List.cons_append, List.nil_append, readQuoted?, read, if_neg low, if_neg high,
      Char.ofNat_toNat]
  · rw [written, List.singleton_append, readQuoted?]
    · rw [if_neg]
      simp [Nat.not_lt.mpr printable, backslash]
    all_goals simp [quote, backslash]

/-- A text is read back from how it is written between quotes. -/
theorem readQuoted?_flatMap (cs rest : List Char) :
    readQuoted? (cs.flatMap quoteChar ++ '"' :: rest) = some (cs, rest) := by
  induction cs with
  | nil => simp [readQuoted?]
  | cons c others ih =>
    rw [List.flatMap_cons, List.append_assoc, readQuoted?_quoteChar, ih]
    rfl

end Quoted

section Grammar

/-- Whether characters are blanks of JSON. -/
def AreSpaces (cs : List Char) : Prop :=
  cs.all isSpace = true

mutual

/-- A text spells data that is nested no deeper than a bound. -/
inductive Spells : Nat → Data → List Char → Prop
  | null {depth : Nat} : Spells depth .null ['n', 'u', 'l', 'l']
  | boolTrue {depth : Nat} : Spells depth (.bool true) ['t', 'r', 'u', 'e']
  | boolFalse {depth : Nat} : Spells depth (.bool false) ['f', 'a', 'l', 's', 'e']
  | number (depth : Nat) (literal : NumberLiteral) :
      Spells depth (.number literal.canonical.text) literal.chars
  | text {depth : Nat} (value : String) : Spells depth (.text value) (quote value)
  | noItems {depth : Nat} {blanks : List Char} (spaces : AreSpaces blanks) :
      Spells (depth + 1) (.list []) ('[' :: (blanks ++ [']']))
  | list {depth : Nat} {items : List Data} {cs : List Char} (each : SpellsItems depth items cs) :
      Spells (depth + 1) (.list items) ('[' :: (cs ++ [']']))
  | noMembers {depth : Nat} {blanks : List Char} (spaces : AreSpaces blanks) :
      Spells (depth + 1) (.map []) ('\x7b' :: (blanks ++ ['\x7d']))
  | map {depth : Nat} {members : List (String × Data)} {data : Data} {cs : List Char}
      (each : SpellsMembers depth members cs) (meant : objectData? members = some data) :
      Spells (depth + 1) data ('\x7b' :: (cs ++ ['\x7d']))

/-- A text spells items with commas between them. -/
inductive SpellsItems : Nat → List Data → List Char → Prop
  | one {depth : Nat} {item : Data} {before cs after : List Char} (leading : AreSpaces before)
      (trailing : AreSpaces after) (first : Spells depth item cs) :
      SpellsItems depth [item] (before ++ (cs ++ after))
  | more {depth : Nat} {item : Data} {rest : List Data} {before cs after others : List Char}
      (leading : AreSpaces before) (trailing : AreSpaces after) (first : Spells depth item cs)
      (tail : SpellsItems depth rest others) :
      SpellsItems depth (item :: rest) (before ++ (cs ++ (after ++ ',' :: others)))

/-- A text spells members with commas between them. -/
inductive SpellsMembers : Nat → List (String × Data) → List Char → Prop
  | one {depth : Nat} (key : String) {value : Data} {before between cs after : List Char}
      (leading : AreSpaces before) (inner : AreSpaces between) (trailing : AreSpaces after)
      (first : Spells depth value cs) :
      SpellsMembers depth [(key, value)] (before ++ (quote key ++ ':' :: (between ++ (cs ++ after))))
  | more {depth : Nat} (key : String) {value : Data} {rest : List (String × Data)}
      {before between cs after others : List Char} (leading : AreSpaces before) (inner : AreSpaces between)
      (trailing : AreSpaces after) (first : Spells depth value cs)
      (tail : SpellsMembers depth rest others) :
      SpellsMembers depth ((key, value) :: rest)
        (before ++ (quote key ++ ':' :: (between ++ (cs ++ (after ++ ',' :: others)))))

end

end Grammar

section Blanks

theorem skipSpace_append {before : List Char} (spaces : AreSpaces before) (rest : List Char) :
    skipSpace (before ++ rest) = skipSpace rest :=
  List.dropWhile_append_of_pos (List.all_eq_true.mp spaces)

theorem skipSpace_cons {c : Char} (noSpace : isSpace c = false) (rest : List Char) :
    skipSpace (c :: rest) = c :: rest := by
  rw [skipSpace, List.dropWhile_cons, noSpace]
  rfl

theorem skipSpace_skipSpace (cs : List Char) : skipSpace (skipSpace cs) = skipSpace cs := by
  induction cs with
  | nil => rfl
  | cons c rest ih =>
    cases space : isSpace c with
    | true =>
      have dropped : skipSpace (c :: rest) = skipSpace rest := by
        rw [skipSpace, List.dropWhile_cons, space]
        rfl
      rw [dropped, ih]
    | false => rw [skipSpace_cons space, skipSpace_cons space]

theorem readValue?_skipSpace (fuel depth : Nat) (cs : List Char) :
    readValue? fuel depth (skipSpace cs) = readValue? fuel depth cs := by
  cases fuel with
  | zero => rfl
  | succ fuel => rw [readValue?, readValue?, skipSpace_skipSpace]

theorem readValue?_append {before : List Char} (spaces : AreSpaces before) (fuel depth : Nat)
    (rest : List Char) : readValue? fuel depth (before ++ rest) = readValue? fuel depth rest := by
  rw [← readValue?_skipSpace, skipSpace_append spaces, readValue?_skipSpace]

theorem readItems?_skipSpace (fuel depth : Nat) (cs : List Char) :
    readItems? fuel depth (skipSpace cs) = readItems? fuel depth cs := by
  cases fuel with
  | zero => rfl
  | succ fuel => rw [readItems?, readItems?, readValue?_skipSpace]

theorem readMembers?_skipSpace (fuel depth : Nat) (cs : List Char) :
    readMembers? fuel depth (skipSpace cs) = readMembers? fuel depth cs := by
  cases fuel with
  | zero => rfl
  | succ fuel => rw [readMembers?, readMembers?, skipSpace_skipSpace]

/-- Behind blanks, a bracket, a brace or a comma ends a number. -/
theorem endsNumber_append {after rest : List Char} (spaces : AreSpaces after) (ends : EndsNumber rest) :
    EndsNumber (after ++ rest) := by
  cases after with
  | nil => exact ends
  | cons c others =>
    have space : isSpace c = true := List.all_eq_true.mp spaces c List.mem_cons_self
    rintro d first
    obtain rfl : c = d := Option.some.inj first
    simp only [isSpace, Bool.or_eq_true, beq_iff_eq] at space
    rcases space with ((rfl | rfl) | rfl) | rfl <;> decide

/-- A number ends before a character that none of it is. -/
theorem endsNumber_cons {c : Char} (rest : List Char)
    (ends : c.isDigit = false ∧ c ≠ '.' ∧ c ≠ 'e' ∧ c ≠ 'E') : EndsNumber (c :: rest) := by
  rintro d first
  obtain rfl : c = d := Option.some.inj first
  exact ends

/-- The spelling of data starts with a character that is no blank and closes nothing. -/
theorem Spells.exists_cons {depth : Nat} {data : Data} {cs : List Char} (spelled : Spells depth data cs) :
    ∃ c rest, cs = c :: rest ∧ isSpace c = false ∧ c ≠ ']' := by
  cases spelled with
  | number depth literal =>
    obtain ⟨first, rest, split, minus | digit⟩ := literal.exists_chars_eq_cons
    · exact ⟨first, rest, split, by simp [minus, isSpace], by simp [minus]⟩
    · exact ⟨first, rest, split, by simp [isSpace, NumberLiteral.ne_of_isDigit digit],
        NumberLiteral.ne_of_isDigit digit (by decide)⟩
  | text value => exact ⟨'"', _, rfl, by decide, by decide⟩
  | _ => exact ⟨_, _, rfl, by decide, by decide⟩

theorem Spells.length_pos {depth : Nat} {data : Data} {cs : List Char} (spelled : Spells depth data cs) :
    0 < cs.length := by
  obtain ⟨c, rest, rfl, _⟩ := spelled.exists_cons
  exact Nat.succ_pos _

theorem SpellsItems.exists_cons {depth : Nat} {items : List Data} {cs : List Char}
    (spelled : SpellsItems depth items cs) (rest : List Char) :
    ∃ c others, skipSpace (cs ++ rest) = c :: others ∧ c ≠ ']' := by
  cases spelled with
  | one leading _ first =>
    obtain ⟨c, others, rfl, noSpace, noClose⟩ := first.exists_cons
    rw [List.append_assoc, skipSpace_append leading, List.append_assoc, List.cons_append,
      skipSpace_cons noSpace]
    exact ⟨c, _, rfl, noClose⟩
  | more leading _ first _ =>
    obtain ⟨c, others, rfl, noSpace, noClose⟩ := first.exists_cons
    rw [List.append_assoc, skipSpace_append leading, List.append_assoc, List.cons_append,
      skipSpace_cons noSpace]
    exact ⟨c, _, rfl, noClose⟩

theorem SpellsMembers.exists_cons {depth : Nat} {members : List (String × Data)} {cs : List Char}
    (spelled : SpellsMembers depth members cs) (rest : List Char) :
    ∃ others, skipSpace (cs ++ rest) = '"' :: others := by
  have quoted : isSpace '"' = false := rfl
  cases spelled with
  | one _ leading _ _ _ =>
    rw [List.append_assoc, skipSpace_append leading, quote, List.append_assoc, List.append_assoc,
      List.cons_append, skipSpace_cons quoted]
    exact ⟨_, rfl⟩
  | more _ leading _ _ _ _ =>
    rw [List.append_assoc, skipSpace_append leading, quote, List.append_assoc, List.append_assoc,
      List.cons_append, skipSpace_cons quoted]
    exact ⟨_, rfl⟩

end Blanks

section Reading

/-- A number is read where a value is expected. -/
theorem readValue?_number (fuel depth : Nat) (literal : NumberLiteral) {rest : List Char}
    (ends : EndsNumber rest) :
    readValue? (fuel + 1) depth (literal.chars ++ rest) = some (.number literal.canonical.text, rest) := by
  have read := number?_append literal ends
  obtain ⟨c, others, split, start⟩ := literal.exists_chars_eq_cons
  have noSpace : isSpace c = false := by
    rcases start with rfl | digit
    · rfl
    · simp [isSpace, NumberLiteral.ne_of_isDigit digit]
  have noOther {d : Char} {tail : List Char} (same : c :: (others ++ rest) = d :: tail)
      (other : d ≠ '-' ∧ d.isDigit = false) : False := by
    cases same
    rcases start with minus | digit
    · exact other.1 minus
    · exact Bool.false_ne_true (other.2.symm.trans digit)
  rw [split, List.cons_append] at read ⊢
  rw [readValue?, skipSpace_cons noSpace]
  split
  iterate 6
    · rename_i same
      exact (noOther same (by decide)).elim
  · rw [read]
    rfl

/-- A member is read with its key, and is the last one before a brace. -/
theorem readMembers?_member {fuel depth : Nat} (key : String) {value : Data}
    {before between cs rest following : List Char} (leading : AreSpaces before) (inner : AreSpaces between)
    (read : readValue? fuel depth cs = some (value, rest)) :
    (skipSpace rest = '\x7d' :: following →
        readMembers? (fuel + 1) depth (before ++ (quote key ++ ':' :: (between ++ cs))) =
          some ([(key, value)], following)) ∧
      (skipSpace rest = ',' :: following → ∀ {members last},
        readMembers? fuel depth following = some (members, last) →
          readMembers? (fuel + 1) depth (before ++ (quote key ++ ':' :: (between ++ cs))) =
            some ((key, value) :: members, last)) := by
  have quoted : isSpace '"' = false := rfl
  have colon : isSpace ':' = false := rfl
  simp only [readMembers?, quote, List.cons_append, List.append_assoc, List.nil_append,
    skipSpace_append leading, skipSpace_cons quoted, readQuoted?_flatMap, skipSpace_cons colon,
    readValue?_append inner, read, Option.bind_eq_bind, Option.bind_some, String.ofList_toList]
  constructor
  · intro separated
    simp only [separated]
  · intro separated members last others
    simp only [separated, others, Option.bind_some]

mutual

/-- Every spelling of data is read, whatever follows it that does not go on with a number. -/
theorem readValue?_of_spells : ∀ {depth : Nat} {data : Data} {cs : List Char}, Spells depth data cs →
    ∀ (fuel : Nat) (rest : List Char), 2 * cs.length ≤ fuel + 1 → EndsNumber rest →
      readValue? fuel depth (cs ++ rest) = some (data, rest)
  | _, _, _, .null, fuel + 1, rest, _, _ => by
    rw [readValue?]
    rfl
  | _, _, _, .boolTrue, fuel + 1, rest, _, _ => by
    rw [readValue?]
    rfl
  | _, _, _, .boolFalse, fuel + 1, rest, _, _ => by
    rw [readValue?]
    rfl
  | _, _, _, .number depth literal, fuel, rest, enough, ends => by
    have nonempty := (Spells.number depth literal).length_pos
    obtain ⟨fuel, rfl⟩ := Nat.exists_eq_succ_of_ne_zero (show fuel ≠ 0 by omega)
    exact readValue?_number fuel depth literal ends
  | _, _, _, .text value, fuel + 1, rest, _, _ => by
    rw [readValue?]
    have start : quote value ++ rest = '"' :: (value.toList.flatMap quoteChar ++ '"' :: rest) := by
      simp [quote]
    rw [start, skipSpace_cons (by decide)]
    simp only [readQuoted?_flatMap, Option.map_some, String.ofList_toList]
  | _, _, _, .noItems spaces, fuel + 1, rest, _, _ => by
    rw [readValue?, List.cons_append, skipSpace_cons (by decide)]
    simp only [List.append_assoc, skipSpace_append spaces, List.singleton_append,
      skipSpace_cons (show isSpace ']' = false from rfl)]
  | _, _, _, .list each, fuel + 1, rest, enough, _ => by
    simp only [List.length_cons, List.length_append, List.length_nil] at enough
    have read := readItems?_of_spells each fuel rest (by omega)
    obtain ⟨c, others, start, noClose⟩ := each.exists_cons (']' :: rest)
    rw [← readItems?_skipSpace, start] at read
    rw [readValue?, List.cons_append, skipSpace_cons (by decide)]
    simp only [List.append_assoc, List.singleton_append, start]
    split
    · rename_i same
      cases same
      exact absurd rfl noClose
    · rw [read]
      rfl
  | _, _, _, .noMembers spaces, fuel + 1, rest, _, _ => by
    rw [readValue?, List.cons_append, skipSpace_cons (by decide)]
    simp only [List.append_assoc, skipSpace_append spaces, List.singleton_append,
      skipSpace_cons (show isSpace '\x7d' = false from rfl)]
  | _, _, _, .map each meant, fuel + 1, rest, enough, _ => by
    simp only [List.length_cons, List.length_append, List.length_nil] at enough
    have read := readMembers?_of_spells each fuel rest (by omega)
    obtain ⟨others, start⟩ := each.exists_cons ('\x7d' :: rest)
    rw [← readMembers?_skipSpace, start] at read
    rw [readValue?, List.cons_append, skipSpace_cons (by decide)]
    simp only [List.append_assoc, List.singleton_append, start]
    split
    · rename_i same
      cases same
    · rw [read, Option.bind_some]
      simp only [meant, Option.map_some]
  | _, _, _, spelled, 0, rest, enough, _ => by
    obtain ⟨c, others, rfl, _, _⟩ := spelled.exists_cons
    rw [List.length_cons] at enough
    omega

/-- Every spelling of items is read up to the closing bracket. -/
theorem readItems?_of_spells : ∀ {depth : Nat} {items : List Data} {cs : List Char},
    SpellsItems depth items cs → ∀ (fuel : Nat) (rest : List Char), 2 * cs.length ≤ fuel →
      readItems? fuel depth (cs ++ ']' :: rest) = some (items, rest)
  | depth, _, _, .one leading trailing first, fuel, rest, enough => by
    have nonempty := first.length_pos
    simp only [List.length_append] at enough
    obtain ⟨fuel, rfl⟩ := Nat.exists_eq_succ_of_ne_zero (show fuel ≠ 0 by omega)
    have close : EndsNumber (']' :: rest) := endsNumber_cons rest (by decide)
    have read := readValue?_of_spells first fuel _ (by omega) (endsNumber_append trailing close)
    simp only [readItems?, List.append_assoc, readValue?_append leading, read, Option.bind_eq_bind,
      Option.bind_some, skipSpace_append trailing, skipSpace_cons (show isSpace ']' = false from rfl)]
  | depth, _, _, @SpellsItems.more _ _ _ _ _ _ remaining leading trailing first tail, fuel, rest, enough => by
    have nonempty := first.length_pos
    simp only [List.length_append, List.length_cons] at enough
    obtain ⟨fuel, rfl⟩ := Nat.exists_eq_succ_of_ne_zero (show fuel ≠ 0 by omega)
    have others := readItems?_of_spells tail fuel rest (by omega)
    have comma : EndsNumber (',' :: (remaining ++ ']' :: rest)) := endsNumber_cons _ (by decide)
    have read := readValue?_of_spells first fuel _ (by omega) (endsNumber_append trailing comma)
    simp only [readItems?, List.append_assoc, List.cons_append, readValue?_append leading, read,
      Option.bind_eq_bind, Option.bind_some, skipSpace_append trailing,
      skipSpace_cons (show isSpace ',' = false from rfl), others]

/-- Every spelling of members is read up to the closing brace. -/
theorem readMembers?_of_spells : ∀ {depth : Nat} {members : List (String × Data)} {cs : List Char},
    SpellsMembers depth members cs → ∀ (fuel : Nat) (rest : List Char), 2 * cs.length ≤ fuel →
      readMembers? fuel depth (cs ++ '\x7d' :: rest) = some (members, rest)
  | depth, _, _, .one key leading inner trailing first, fuel, rest, enough => by
    simp only [List.length_append, List.length_cons, quote, List.length_nil] at enough
    obtain ⟨fuel, rfl⟩ := Nat.exists_eq_succ_of_ne_zero (show fuel ≠ 0 by omega)
    have close : EndsNumber ('\x7d' :: rest) := endsNumber_cons rest (by decide)
    have read := readValue?_of_spells first fuel _ (by omega) (endsNumber_append trailing close)
    have separated := (skipSpace_append trailing _).trans
      (skipSpace_cons (show isSpace '\x7d' = false from rfl) rest)
    simp only [List.append_assoc, List.cons_append]
    exact (readMembers?_member key leading inner read).1 separated
  | depth, _, _, @SpellsMembers.more _ key _ _ _ _ _ _ remaining leading inner trailing first tail, fuel, rest,
      enough => by
    simp only [List.length_append, List.length_cons, quote, List.length_nil] at enough
    obtain ⟨fuel, rfl⟩ := Nat.exists_eq_succ_of_ne_zero (show fuel ≠ 0 by omega)
    have others := readMembers?_of_spells tail fuel rest (by omega)
    have comma : EndsNumber (',' :: (remaining ++ '\x7d' :: rest)) := endsNumber_cons _ (by decide)
    have read := readValue?_of_spells first fuel _ (by omega) (endsNumber_append trailing comma)
    have separated := (skipSpace_append trailing _).trans
      (skipSpace_cons (show isSpace ',' = false from rfl) (remaining ++ '\x7d' :: rest))
    simp only [List.append_assoc, List.cons_append]
    exact (readMembers?_member key leading inner read).2 separated others

end

/-- A text that spells data is read as it. -/
theorem read?_of_spells {data : Data} {cs : List Char} (spelled : Spells maxDepth data cs) :
    read? (String.ofList cs) = some data := by
  have read := readValue?_of_spells spelled (2 * cs.length + 2) [] (by omega) (by simp [EndsNumber])
  rw [List.append_nil] at read
  simp only [read?, String.toList_ofList, read]
  rfl

end Reading

section Writing

mutual

/-- Whether data is read back as it is written: it is not nested deeper than a bound, its numbers are kept as
the reader keeps them, and its objects repeat no key and do not start with the one for numbers. -/
def IsLegible : Nat → Data → Prop
  | _, .number number => ∃ literal : NumberLiteral, literal.canonical.text = number
  | 0, .list _ => False
  | 0, .map _ => False
  | depth + 1, .list items => itemsAreLegible depth items
  | depth + 1, .map entries =>
    (Table.keys entries).Nodup ∧ (∀ entry ∈ entries.head?, entry.1 ≠ numberKey) ∧
      entriesAreLegible depth entries
  | _, _ => True

/-- Whether items are read back as they are written. -/
def itemsAreLegible : Nat → List Data → Prop
  | _, [] => True
  | depth, item :: rest => IsLegible depth item ∧ itemsAreLegible depth rest

/-- Whether entries are read back as they are written. -/
def entriesAreLegible : Nat → List (String × Data) → Prop
  | _, [] => True
  | depth, (_, data) :: rest => IsLegible depth data ∧ entriesAreLegible depth rest

end

theorem areSpaces_nil : AreSpaces [] := rfl

theorem areSpaces_blank : AreSpaces [' '] := rfl

theorem areSpaces_newline (level : Nat) : AreSpaces (newline level) := by
  rw [AreSpaces, newline, List.all_cons, List.all_replicate]
  split <;> rfl

/-- A canonical literal is read as it is. -/
theorem spells_canonical (depth : Nat) (literal : NumberLiteral) :
    Spells depth (.number literal.canonical.text) literal.canonical.text.toList := by
  have same : literal.canonical.canonical = literal.canonical := by
    cases part : literal.exponent? <;> simp [NumberLiteral.canonical, part]
  have spelled := Spells.number depth literal.canonical
  rw [same] at spelled
  rw [NumberLiteral.text, String.toList_ofList]
  exact spelled

/-- Members of legible entries make the map that they are. -/
theorem objectData?_of_legible {entries : List (String × Data)} (distinct : (Table.keys entries).Nodup)
    (ordinary : ∀ entry ∈ entries.head?, entry.1 ≠ numberKey) : objectData? entries = some (.map entries) := by
  cases entries with
  | nil => rfl
  | cons entry rest =>
    obtain ⟨key, value⟩ := entry
    have other : key ≠ numberKey := ordinary (key, value) rfl
    cases value <;> simp [objectData?, other, Table.ofPairs_of_nodup distinct]

mutual

/-- Compact text spells legible data. -/
theorem spells_compactChars : ∀ (depth : Nat) (data : Data), IsLegible depth data →
    Spells depth data (compactChars data)
  | _, .null, _ => .null
  | _, .bool true, _ => .boolTrue
  | _, .bool false, _ => .boolFalse
  | depth, .number number, legible => by
    obtain ⟨literal, rfl⟩ := legible
    exact spells_canonical depth literal
  | _, .text value, _ => .text value
  | depth + 1, .list [], _ => .noItems areSpaces_nil
  | depth + 1, .list (item :: rest), legible => .list (spells_compactItems depth item rest legible)
  | depth + 1, .map [], _ => .noMembers areSpaces_nil
  | depth + 1, .map (entry :: rest), legible => by
    obtain ⟨distinct, ordinary, each⟩ := legible
    exact .map (spells_compactEntries depth entry rest each) (objectData?_of_legible distinct ordinary)

/-- Compact text spells legible items. -/
theorem spells_compactItems : ∀ (depth : Nat) (item : Data) (rest : List Data),
    itemsAreLegible depth (item :: rest) → SpellsItems depth (item :: rest) (compactItems (item :: rest))
  | depth, item, [], legible => by
    have first := SpellsItems.one areSpaces_nil areSpaces_nil (spells_compactChars depth item legible.1)
    rwa [List.append_nil] at first
  | depth, item, next :: rest, legible =>
    .more areSpaces_nil areSpaces_nil (spells_compactChars depth item legible.1)
      (spells_compactItems depth next rest legible.2)

/-- Compact text spells legible entries. -/
theorem spells_compactEntries : ∀ (depth : Nat) (entry : String × Data) (rest : List (String × Data)),
    entriesAreLegible depth (entry :: rest) →
      SpellsMembers depth (entry :: rest) (compactEntries (entry :: rest))
  | depth, (key, data), [], legible => by
    have first := SpellsMembers.one key areSpaces_nil areSpaces_nil areSpaces_nil
      (spells_compactChars depth data legible.1)
    rwa [List.append_nil] at first
  | depth, (key, data), next :: rest, legible => by
    have more := SpellsMembers.more key areSpaces_nil areSpaces_nil areSpaces_nil
      (spells_compactChars depth data legible.1) (spells_compactEntries depth next rest legible.2)
    simpa only [compactEntries, List.nil_append, List.append_assoc, List.cons_append] using more

end

mutual

/-- Indented text spells legible data. -/
theorem spells_indentedChars : ∀ (depth : Nat) (data : Data) (level : Nat), IsLegible depth data →
    Spells depth data (indentedChars level data)
  | _, .null, _, _ => .null
  | _, .bool true, _, _ => .boolTrue
  | _, .bool false, _, _ => .boolFalse
  | depth, .number number, _, legible => by
    obtain ⟨literal, rfl⟩ := legible
    exact spells_canonical depth literal
  | _, .text value, _, _ => .text value
  | depth + 1, .list [], _, _ => .noItems areSpaces_nil
  | depth + 1, .list (item :: rest), level, legible => by
    have each := spells_indentedItems depth item rest (level + 1) legible (areSpaces_newline level)
    simpa only [indentedChars, List.append_assoc, List.cons_append] using Spells.list each
  | depth + 1, .map [], _, _ => .noMembers areSpaces_nil
  | depth + 1, .map (entry :: rest), level, legible => by
    obtain ⟨distinct, ordinary, legible⟩ := legible
    have each := spells_indentedEntries depth entry rest (level + 1) legible (areSpaces_newline level)
    simpa only [indentedChars, List.append_assoc, List.cons_append] using
      Spells.map each (objectData?_of_legible distinct ordinary)

/-- Indented text spells legible items, with blanks behind them. -/
theorem spells_indentedItems : ∀ (depth : Nat) (item : Data) (rest : List Data) (level : Nat),
    itemsAreLegible depth (item :: rest) → ∀ {after : List Char}, AreSpaces after →
      SpellsItems depth (item :: rest) (indentedItems level (item :: rest) ++ after)
  | depth, item, [], level, legible, after, spaces => by
    have first := SpellsItems.one (areSpaces_newline level) spaces
      (spells_indentedChars depth item level legible.1)
    simpa only [indentedItems, List.append_assoc] using first
  | depth, item, next :: rest, level, legible, after, spaces => by
    have more := SpellsItems.more (areSpaces_newline level) areSpaces_nil
      (spells_indentedChars depth item level legible.1)
      (spells_indentedItems depth next rest level legible.2 spaces)
    simpa only [indentedItems, List.append_assoc, List.nil_append, List.cons_append] using more

/-- Indented text spells legible entries, with blanks behind them. -/
theorem spells_indentedEntries : ∀ (depth : Nat) (entry : String × Data) (rest : List (String × Data))
    (level : Nat), entriesAreLegible depth (entry :: rest) → ∀ {after : List Char}, AreSpaces after →
      SpellsMembers depth (entry :: rest) (indentedEntries level (entry :: rest) ++ after)
  | depth, (key, data), [], level, legible, after, spaces => by
    have first := SpellsMembers.one key (areSpaces_newline level) areSpaces_blank spaces
      (spells_indentedChars depth data level legible.1)
    simpa only [indentedEntries, List.append_assoc, List.cons_append, List.nil_append] using first
  | depth, (key, data), next :: rest, level, legible, after, spaces => by
    have more := SpellsMembers.more key (areSpaces_newline level) areSpaces_blank areSpaces_nil
      (spells_indentedChars depth data level legible.1)
      (spells_indentedEntries depth next rest level legible.2 spaces)
    simpa only [indentedEntries, List.append_assoc, List.cons_append, List.nil_append] using more

end

/-- Legible data is read back from compact text. -/
theorem read?_compact {data : Data} (legible : IsLegible maxDepth data) : read? (compact data) = some data :=
  read?_of_spells (spells_compactChars maxDepth data legible)

/-- Legible data is read back from indented text. -/
theorem read?_indented {data : Data} (legible : IsLegible maxDepth data) :
    read? (indented data) = some data :=
  read?_of_spells (spells_indentedChars maxDepth data 0 legible)

end Writing

end ClassSchema.Json
