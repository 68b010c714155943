import ClassSchema.Block.Quoted
import ClassSchema.Yaml.ScalarText

/-! # Scalars of block text

A text between the quotes of block text is read back by the reader of double-quoted YAML, character by
character, and every character that is written is one that YAML text may hold. Plain scalars of block text
are bare keys, numbers and truth values: words that no indicator interrupts.
-/

namespace ClassSchema.Yaml

open Block (quoteChar quote)

@[simp]
theorem Mark.forward_forward (mark : Mark) (first second : Nat) :
    (mark.forward first).forward second = mark.forward (first + second) := by
  simp [Mark.forward, Nat.add_assoc]

@[simp]
theorem Mark.forward_zero (mark : Mark) : mark.forward 0 = mark := rfl

/-- How a character stands between quotes: as it is, or as an escape that stands for it. -/
inductive Quotes (c : Char) : List Char → Prop
  | plain (noQuote : c ≠ '"') (noEscape : c ≠ '\\') (noBreak : isBreak c = false) (noTab : c ≠ '\t') :
      Quotes c [c]
  | escape {letter : Char} {digits : List Char} (noBreak : isBreak letter = false)
      (noReturn : ∀ d ∈ digits, d ≠ '\r')
      (stands : ∀ rest, ∃ more, readEscape? (letter :: (digits ++ rest)) = some (c, digits.length + 1, more)) :
      Quotes c ('\\' :: letter :: digits)

theorem Quotes.named {c letter : Char} (named : namedEscape? letter = some c)
    (noBreak : isBreak letter = false) : Quotes c ['\\', letter] :=
  @Quotes.escape c letter [] noBreak (by simp) fun rest => ⟨rest, by simp [readEscape?, named]⟩

/-- A letter with as many digits as it announces stands for the character whose code they are. -/
theorem Quotes.numbered {c letter : Char} {digits : List Char} (noName : namedEscape? letter = none)
    (noBreak : isBreak letter = false) (width : escapeWidth? letter = some digits.length)
    (noReturn : ∀ d ∈ digits, d ≠ '\r') (read : Text.hexNumber? digits = some c.toNat) :
    Quotes c ('\\' :: letter :: digits) := by
  refine .escape noBreak noReturn fun rest => ⟨rest, ?_⟩
  have scalar : Text.codePoint? c.toNat = some c := by
    have valid := c.valid
    simp only [UInt32.isValidChar, Nat.isValidChar] at valid
    rw [Text.codePoint?, if_neg, Char.ofNat_toNat]
    simp only [← Char.toNat_val]
    omega
  simp [readEscape?, noName, width, read, scalar]

private theorem hexValue?_hexDigitUpper : ∀ n < 16, Text.hexValue? (Text.hexDigitUpper n) = some n ∧
    Text.hexDigitUpper n ≠ '\r' ∧ isReadable (Text.hexDigitUpper n) = true := by decide

theorem safe_of_mem_hexDigits {width code : Nat} {d : Char}
    (member : d ∈ Text.hexDigits Text.hexDigitUpper width code) : d ≠ '\r' ∧ isReadable d = true := by
  obtain ⟨place, _, rfl⟩ := List.mem_map.mp member
  exact (hexValue?_hexDigitUpper _ (Nat.mod_lt _ (by decide))).2

theorem hexNumber?_hexDigits_two {code : Nat} (below : code < 0x100) :
    Text.hexNumber? (Text.hexDigits Text.hexDigitUpper 2 code) = some code := by
  have digits : Text.hexDigits Text.hexDigitUpper 2 code =
      [Text.hexDigitUpper (code / 16 % 16), Text.hexDigitUpper (code / 1 % 16)] := rfl
  have high := (hexValue?_hexDigitUpper (code / 16 % 16) (Nat.mod_lt _ (by decide))).1
  have low := (hexValue?_hexDigitUpper (code / 1 % 16) (Nat.mod_lt _ (by decide))).1
  simp only [digits, Text.hexNumber?, List.foldlM_cons, List.foldlM_nil, high, low, Option.map_some,
    Option.bind_eq_bind, Option.bind_some, Option.pure_def, Option.some.injEq]
  omega

private theorem quotes_ite {c same letter : Char} {others : List Char}
    (named : namedEscape? letter = some same) (safe : isBreak letter = false ∧ isReadable letter = true)
    (other : c ≠ same → Quotes c others ∧ ∀ d ∈ others, isReadable d = true) :
    Quotes c (if c = same then ['\\', letter] else others) ∧
      ∀ d ∈ if c = same then ['\\', letter] else others, isReadable d = true := by
  by_cases found : c = same
  · subst found
    simp only [if_true, List.forall_mem_cons]
    exact ⟨.named named safe.1, rfl, safe.2, by simp⟩
  · simpa only [if_neg found] using other found

/-- Every character is written so that it is read back, with characters that YAML text may hold. -/
theorem quotes_quoteChar (c : Char) : Quotes c (quoteChar c) ∧ ∀ d ∈ quoteChar c, isReadable d = true := by
  unfold quoteChar
  refine quotes_ite rfl (by decide) fun noQuote => quotes_ite rfl (by decide) fun noEscape =>
    quotes_ite rfl (by decide) fun _ => quotes_ite rfl (by decide) fun _ => quotes_ite rfl (by decide) fun _ =>
    quotes_ite rfl (by decide) fun noTab => quotes_ite rfl (by decide) fun noFeed =>
    quotes_ite rfl (by decide) fun _ => quotes_ite rfl (by decide) fun _ =>
    quotes_ite rfl (by decide) fun noReturn => quotes_ite rfl (by decide) fun _ =>
    quotes_ite rfl (by decide) fun noNext => quotes_ite rfl (by decide) fun noLine =>
    quotes_ite rfl (by decide) fun noParagraph => ?_
  simp only [Char.lt_def, Char.le_def, UInt32.lt_iff_toNat_lt, UInt32.le_iff_toNat_le]
  by_cases control : c.val.toNat < ' '.val.toNat ∨
      '\x7f'.val.toNat ≤ c.val.toNat ∧ c.val.toNat ≤ '\u009f'.val.toNat
  · have below : c.toNat < 0xa0 := by
      rcases control with low | ⟨_, high⟩
      · exact Nat.lt_trans low (by decide)
      · exact Nat.lt_succ_of_le high
    rw [if_pos control]
    refine ⟨.numbered rfl rfl rfl (fun d member => (safe_of_mem_hexDigits member).1)
      (hexNumber?_hexDigits_two (Nat.lt_trans below (by decide))), ?_⟩
    simp only [List.forall_mem_cons]
    exact ⟨rfl, rfl, fun d member => (safe_of_mem_hexDigits member).2⟩
  rw [if_neg control]
  by_cases special : c = '\ufeff' ∨ c = '\ufffe' ∨ c = '\uffff'
  · rw [if_pos special]
    refine ⟨.numbered rfl rfl rfl (fun d member => (safe_of_mem_hexDigits member).1) ?_, ?_⟩
    · rcases special with rfl | rfl | rfl <;> rfl
    · simp only [List.forall_mem_cons]
      exact ⟨rfl, rfl, fun d member => (safe_of_mem_hexDigits member).2⟩
  rw [if_neg special]
  refine ⟨.plain noQuote noEscape (by simp [isBreak, noFeed, noReturn, noNext, noLine, noParagraph]) noTab, ?_⟩
  have notTwo : c.toNat ≠ 0xfffe ∧ c.toNat ≠ 0xffff :=
    ⟨fun same => special (.inr (.inl (Char.toNat_inj.mp same))),
      fun same => special (.inr (.inr (Char.toNat_inj.mp same)))⟩
  have valid := c.valid
  simp only [UInt32.isValidChar, Nat.isValidChar] at valid
  simp only [List.mem_singleton, forall_eq, isReadable, Bool.or_eq_true, Bool.and_eq_true, decide_eq_true_eq,
    Char.le_def, UInt32.le_iff_toNat_le, ← Char.toNat_val] at notTwo ⊢
  have space : ' '.val.toNat = 32 := rfl
  have tilde : '~'.val.toNat = 126 := rfl
  have delete : '\x7f'.val.toNat = 127 := rfl
  have last : '\u009f'.val.toNat = 159 := rfl
  omega

theorem doubleQuotedRest?_passed {d : Char} (noReturn : d ≠ '\r') (cs : List Char) (mark : Mark)
    (text : List Char) (gap : Gap) (passed : Nat) :
    doubleQuotedRest? (d :: cs) mark text gap (passed + 1) =
      doubleQuotedRest? cs (mark.forward 1) text gap passed := by
  by_cases escape : d = '\\'
  · subst escape
    rw [doubleQuotedRest?]
  · rw [doubleQuotedRest?]
    · simp [noReturn]
    · simp [escape]

theorem doubleQuotedRest?_digits {digits : List Char} (noReturn : ∀ d ∈ digits, d ≠ '\r') (cs : List Char)
    (text : List Char) (gap : Gap) : ∀ mark : Mark,
    doubleQuotedRest? (digits ++ cs) mark text gap digits.length =
      doubleQuotedRest? cs (mark.forward digits.length) text gap 0 := by
  induction digits with
  | nil => intro mark; rfl
  | cons d rest ih =>
    intro mark
    rw [List.forall_mem_cons] at noReturn
    rw [List.cons_append, List.length_cons, doubleQuotedRest?_passed noReturn.1, ih noReturn.2,
      Mark.forward_forward, Nat.add_comm]

/-- A character is read between quotes from how it is written: it is held back if it is a blank, and else it
is read behind the blanks that were held back. -/
theorem doubleQuotedRest?_of_quotes {c : Char} {written : List Char} (quotes : Quotes c written)
    (cs text blanks : List Char) {mark : Mark} (inside : mark.column ≠ 0) :
    ∃ text' blanks', blanks'.reverse ++ text' = c :: (blanks.reverse ++ text) ∧
      doubleQuotedRest? (written ++ cs) mark text ⟨blanks, false, [], []⟩ 0 =
        doubleQuotedRest? cs (mark.forward written.length) text' ⟨blanks', false, [], []⟩ 0 := by
  cases quotes with
  | plain noQuote noEscape noBreak noTab =>
    have noReturn : c ≠ '\r' := by
      rintro rfl
      cases noBreak
    have step : doubleQuotedRest? ([c] ++ cs) mark text ⟨blanks, false, [], []⟩ 0 =
        if isBlank c then doubleQuotedRest? cs (mark.forward 1) text ⟨blanks ++ [c], false, [], []⟩ 0
        else doubleQuotedRest? cs (mark.forward 1) (c :: (blanks.reverse ++ text)) Gap.none 0 := by
      rw [List.singleton_append, doubleQuotedRest?]
      · simp [noBreak, inside, noQuote, Gap.addBlank, Gap.text]
      · simp [noReturn]
      · simp [noEscape]
    rw [step]
    split
    · exact ⟨text, blanks ++ [c], by simp, rfl⟩
    · exact ⟨c :: (blanks.reverse ++ text), [], rfl, rfl⟩
  | @escape letter digits noBreak noReturn stands =>
    obtain ⟨more, read⟩ := stands cs
    have noReturnLetter : letter ≠ '\r' := by
      rintro rfl
      cases noBreak
    refine ⟨c :: (blanks.reverse ++ text), [], rfl, ?_⟩
    rw [List.cons_append, List.cons_append, doubleQuotedRest?]
    · simp only [noBreak, read, Bool.false_eq_true, if_false, Nat.add_sub_cancel, Gap.text]
      rw [doubleQuotedRest?_digits noReturn, Mark.forward_forward, List.length_cons, List.length_cons,
        Nat.add_comm 2]
      rfl
    · simp [noReturnLetter]

/-- A text is read back from how it is written between quotes. -/
theorem doubleQuotedRest?_flatMap (cs rest : List Char) : ∀ (text blanks : List Char) {mark : Mark},
    mark.column ≠ 0 →
      doubleQuotedRest? (cs.flatMap quoteChar ++ '"' :: rest) mark text ⟨blanks, false, [], []⟩ 0 =
        some ((blanks.reverse ++ text).reverse ++ cs,
          ⟨mark.forward ((cs.flatMap quoteChar).length + 1), rest⟩) := by
  induction cs with
  | nil =>
    intro text blanks mark inside
    rw [List.flatMap_nil, List.nil_append, doubleQuotedRest?]
    · simp [isBreak, isBlank, inside, Gap.text]
    · simp
    · simp
  | cons c others ih =>
    intro text blanks mark inside
    obtain ⟨text', blanks', total, read⟩ :=
      doubleQuotedRest?_of_quotes (quotes_quoteChar c).1 (others.flatMap quoteChar ++ '"' :: rest) text
        blanks inside
    have further : (mark.forward (quoteChar c).length).column ≠ 0 := by
      simp only [Mark.forward]
      omega
    rw [List.flatMap_cons, List.append_assoc, read, ih text' blanks' further, total, Mark.forward_forward,
      List.length_append]
    simp [Nat.add_assoc]

/-- A quoted text is read back, and the position after it is found. -/
theorem quotedScalar?_quote (text : String) (rest : List Char) (mark : Mark) :
    quotedScalar? false ⟨mark, quote text ++ rest⟩ =
      some (text.toList, ⟨mark.forward (quote text).length, rest⟩) := by
  have inside : (mark.forward 1).column ≠ 0 := Nat.succ_ne_zero _
  have read := doubleQuotedRest?_flatMap text.toList rest [] [] inside
  rw [Mark.forward_forward] at read
  simp only [quotedScalar?, Cursor.skip, quote, List.cons_append, List.append_assoc, List.tail_cons,
    List.nil_append, Bool.false_eq_true, if_false, Gap.none]
  rw [read]
  simp [Nat.add_comm]

theorem isReadable_of_mem_quote {text : String} {c : Char} (member : c ∈ quote text) :
    isReadable c = true := by
  simp only [quote, List.mem_cons, List.mem_append, List.mem_flatMap, List.not_mem_nil, or_false] at member
  rcases member with (rfl | ⟨d, _, member⟩) | rfl
  · rfl
  · exact (quotes_quoteChar d).2 c member
  · rfl

/-- The characters of plain words: letters and digits of ASCII and a few signs. -/
def isPlainChar (c : Char) : Bool :=
  c.isAlphanum || c == '_' || c == '-' || c == '+' || c == '.'

/-- Whether a plain word may start with the character: a letter or digit of ASCII, or an underscore. -/
def startsWord (c : Char) : Bool :=
  c.isAlphanum || c == '_'

/-- The words that block text has without quotes: they start as a name or a number does. -/
inductive PlainWord : List Char → Prop
  | word {first : Char} {rest : List Char} (starts : startsWord first = true)
      (others : ∀ c ∈ rest, isPlainChar c = true) : PlainWord (first :: rest)
  | negative {digit : Char} {rest : List Char} (starts : startsWord digit = true)
      (others : ∀ c ∈ rest, isPlainChar c = true) : PlainWord ('-' :: digit :: rest)

theorem isPlainChar_of_startsWord {c : Char} (starts : startsWord c = true) : isPlainChar c = true := by
  rw [isPlainChar, Bool.or_assoc, Bool.or_assoc, Bool.or_eq_true]
  exact .inl starts

theorem ne_of_isPlainChar {c other : Char} (allowed : isPlainChar c = true)
    (strange : isPlainChar other = false) : c ≠ other := by
  rintro rfl
  rw [allowed] at strange
  cases strange

theorem ne_of_startsWord {c other : Char} (starts : startsWord c = true)
    (strange : startsWord other = false) : c ≠ other := by
  rintro rfl
  rw [starts] at strange
  cases strange

theorem noSpace_of_isPlainChar {c : Char} (allowed : isPlainChar c = true) :
    isBreak c = false ∧ isBlank c = false := by
  have ne (other : Char) := @ne_of_isPlainChar c other allowed
  simp [isBreak, isBlank, ne '\n' rfl, ne '\r' rfl, ne '\u0085' rfl, ne '\u2028' rfl, ne '\u2029' rfl,
    ne ' ' rfl, ne '\t' rfl]

theorem isReadable_of_isPlainChar {c : Char} (allowed : isPlainChar c = true) : isReadable c = true := by
  simp only [isPlainChar, Bool.or_eq_true, beq_iff_eq] at allowed
  rcases allowed with (((letter | rfl) | rfl) | rfl) | rfl
  · have printable : 32 ≤ c.toNat ∧ c.toNat ≤ 126 := by
      delta Char.isAlphanum Char.isAlpha Char.isUpper Char.isLower Char.isDigit at letter
      simp only [Bool.or_eq_true, Bool.and_eq_true, decide_eq_true_eq, ge_iff_le,
        UInt32.le_iff_toNat_le] at letter
      change (65 ≤ c.toNat ∧ c.toNat ≤ 90 ∨ 97 ≤ c.toNat ∧ c.toNat ≤ 122) ∨
        48 ≤ c.toNat ∧ c.toNat ≤ 57 at letter
      omega
    simp [isReadable, Char.le_def, UInt32.le_iff_toNat_le, printable]
  all_goals decide

theorem PlainWord.areAllowed {cs : List Char} (word : PlainWord cs) : ∀ c ∈ cs, isPlainChar c = true := by
  cases word with
  | word starts others => exact List.forall_mem_cons.mpr ⟨isPlainChar_of_startsWord starts, others⟩
  | negative starts others =>
    exact List.forall_mem_cons.mpr ⟨rfl, List.forall_mem_cons.mpr ⟨isPlainChar_of_startsWord starts, others⟩⟩

theorem PlainWord.exists_cons {cs : List Char} (word : PlainWord cs) : ∃ first rest, cs = first :: rest := by
  cases word <;> exact ⟨_, _, rfl⟩

theorem PlainWord.noDocumentMark {cs : List Char} (word : PlainWord cs) (rest : List Char) :
    atDocumentMark (cs ++ rest) = false := by
  cases word with
  | @word first others starts _ =>
    have noHyphen : first ≠ '-' := ne_of_startsWord starts rfl
    have noPoint : first ≠ '.' := ne_of_startsWord starts rfl
    simp [atDocumentMark, noHyphen, noPoint]
  | @negative digit others starts _ =>
    have noHyphen : digit ≠ '-' := ne_of_startsWord starts rfl
    simp [atDocumentMark, noHyphen]

/-- Within a word, a plain scalar goes on over plain characters. -/
theorem plainRest?_plainChars {cs : List Char} (allowed : ∀ c ∈ cs, isPlainChar c = true) (indent : Int)
    (rest : List Char) : ∀ (mark : Mark) (text : List Char),
      plainRest? false indent (cs ++ rest) mark text Gap.none true =
        plainRest? false indent rest (mark.forward cs.length) (cs.reverse ++ text) Gap.none true := by
  induction cs with
  | nil => intro mark text; rfl
  | cons c others ih =>
    intro mark text
    rw [List.forall_mem_cons] at allowed
    obtain ⟨noBreak, noBlank⟩ := noSpace_of_isPlainChar allowed.1
    have noColon : c ≠ ':' := ne_of_isPlainChar allowed.1 rfl
    have noReturn : c ≠ '\r' := ne_of_isPlainChar allowed.1 rfl
    have step : plainRest? false indent (c :: (others ++ rest)) mark text Gap.none true =
        plainRest? false indent (others ++ rest) (mark.forward 1) (c :: text) Gap.none true := by
      rw [plainRest?]
      · simp [noBreak, noBlank, isMisplacedColon, endsBeforeChar, noColon, Gap.none, Gap.text]
      · simp [noReturn]
    rw [List.cons_append, step, ih allowed.2, Mark.forward_forward, List.length_cons, Nat.add_comm 1]
    simp

/-- A plain scalar starts with the whole word that comes next. -/
theorem plainScalar?_of_word {cs : List Char} (word : PlainWord cs) (indent : Int) (rest : List Char)
    (mark : Mark) :
    plainScalar? false indent ⟨mark, cs ++ rest⟩ =
      plainRest? false (indent + 1) rest (mark.forward cs.length) cs.reverse Gap.none true := by
  obtain ⟨first, others, rfl⟩ := word.exists_cons
  have allowed := List.forall_mem_cons.mp word.areAllowed
  obtain ⟨noBreak, noBlank⟩ := noSpace_of_isPlainChar allowed.1
  have noMark : atDocumentMark (first :: (others ++ rest)) = false := word.noDocumentMark rest
  have noColon : first ≠ ':' := ne_of_isPlainChar allowed.1 rfl
  have noReturn : first ≠ '\r' := ne_of_isPlainChar allowed.1 rfl
  have noComment : first ≠ '#' := ne_of_isPlainChar allowed.1 rfl
  have step : plainRest? false (indent + 1) (first :: (others ++ rest)) mark [] Gap.none false =
      plainRest? false (indent + 1) (others ++ rest) (mark.forward 1) [first] Gap.none true := by
    rw [plainRest?]
    · simp [noBreak, noBlank, noMark, noComment, endsBeforeWord, isMisplacedColon, endsBeforeChar, noColon,
        Gap.none, Gap.text]
    · simp [noReturn]
  rw [plainScalar?, List.cons_append, step, plainRest?_plainChars allowed.2, Mark.forward_forward,
    List.length_cons, Nat.add_comm 1, List.reverse_cons]

/-- A word ends before a colon that stands alone. -/
theorem plainRest?_colon {rest : List Char} (alone : atBlankOrEnd rest = true) (indent : Int) (mark : Mark)
    (text : List Char) :
    plainRest? false indent (':' :: rest) mark text Gap.none true =
      some (text.reverse, false, ⟨mark, ':' :: rest⟩) := by
  rw [plainRest?]
  · simp [isBreak, isBlank, isMisplacedColon, endsBeforeChar, alone, Gap.none]
  · simp

end ClassSchema.Yaml
