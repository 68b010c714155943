import ClassSchema.Graph.Turtle
import ClassSchema.Proofs.JsonText

/-! # Tokens of Turtle

A text in Turtle is read token by token: an IRI goes on to the bracket that closes it and holds no blank and
none of a few delimiters, a literal goes on to the quote that closes it and has its escapes undone, and a word
goes on to the next blank. What is written as lines of tokens is read as these tokens and as no others, because
an IRI is written with its delimiters percent-encoded, and a literal with the escapes of JSON, which are among
those of Turtle.
-/

namespace ClassSchema

namespace Turtle

/-- Whether a character separates tokens. -/
def isSpace (c : Char) : Bool :=
  c == ' ' || c == '\t' || c == '\r' || c == '\n'

/-- Whether a character may stand between the brackets of an IRI. -/
def isIriChar (c : Char) : Bool :=
  0x20 < c.toNat && !(['<', '>', '"', '\x7b', '\x7d', '|', '^', '\x60', '\\'].contains c)

/-- The character that a one-letter escape stands for. -/
def shortEscape? : Char → Option Char
  | 't' => some '\t'
  | 'b' => some '\x08'
  | 'n' => some '\n'
  | 'r' => some '\r'
  | 'f' => some '\x0c'
  | '"' => some '"'
  | '\x27' => some '\x27'
  | '\\' => some '\\'
  | _ => none

/-- Read the characters of an IRI up to the closing bracket, and what follows it. -/
def readIri? (cs : List Char) : Option (List Char × List Char) :=
  match cs.dropWhile isIriChar with
  | '>' :: rest => some (cs.takeWhile isIriChar, rest)
  | _ => none

/-- Read the characters of a literal up to the closing quote, with escapes undone, and what follows it. -/
def readLiteral? : List Char → Option (List Char × List Char)
  | [] => none
  | '"' :: rest => some ([], rest)
  | '\\' :: 'u' :: a :: b :: c :: d :: rest =>
    match (Text.hexNumber? [a, b, c, d]).bind Text.codePoint? with
    | none => none
    | some c => (readLiteral? rest).map fun (cs, rest) => (c :: cs, rest)
  | '\\' :: 'U' :: a :: b :: c :: d :: e :: f :: g :: h :: rest =>
    match (Text.hexNumber? [a, b, c, d, e, f, g, h]).bind Text.codePoint? with
    | none => none
    | some c => (readLiteral? rest).map fun (cs, rest) => (c :: cs, rest)
  | '\\' :: escape :: rest =>
    match shortEscape? escape with
    | none => none
    | some c => (readLiteral? rest).map fun (cs, rest) => (c :: cs, rest)
  | c :: rest =>
    if c = '\\' ∨ c = '\n' ∨ c = '\r' then none
    else (readLiteral? rest).map fun (cs, rest) => (c :: cs, rest)

/-- Read the token at the front of a text, and what follows it. -/
def readToken? : List Char → Option (TurtleToken × List Char)
  | '<' :: rest => (readIri? rest).map fun (cs, rest) => (.iri (String.ofList cs), rest)
  | '"' :: rest => (readLiteral? rest).map fun (cs, rest) => (.literal (String.ofList cs), rest)
  | cs =>
    match cs.takeWhile (!isSpace ·) with
    | [] => none
    | word => some (.word (String.ofList word), cs.dropWhile (!isSpace ·))

/-- Whether a text is read as tokens: between and behind them there is nothing but blanks. -/
inductive ReadsAs : List Char → List TurtleToken → Prop
  | done : ReadsAs [] []
  | space {c : Char} {rest : List Char} {tokens : List TurtleToken} (blank : isSpace c = true)
      (others : ReadsAs rest tokens) : ReadsAs (c :: rest) tokens
  | token {cs rest : List Char} {token : TurtleToken} {tokens : List TurtleToken}
      (read : readToken? cs = some (token, rest)) (others : ReadsAs rest tokens) :
      ReadsAs cs (token :: tokens)

/-- No token starts with a blank. -/
theorem readToken?_of_isSpace {c : Char} {rest : List Char} (blank : isSpace c = true) :
    readToken? (c :: rest) = none := by
  have start : c ≠ '<' ∧ c ≠ '"' := by
    constructor <;> (rintro rfl; exact absurd blank (by decide))
  unfold readToken?
  split
  · simp_all
  · simp_all
  · simp [blank]

/-- A text is read in one way only. -/
theorem ReadsAs.unique {cs : List Char} {left right : List TurtleToken} (first : ReadsAs cs left)
    (second : ReadsAs cs right) : left = right := by
  induction first generalizing right with
  | done =>
    cases second with
    | done => rfl
    | token read => cases read
  | space blank _ ih =>
    cases second with
    | space _ others => exact ih others
    | token read => cases (readToken?_of_isSpace blank).symm.trans read
  | token read _ ih =>
    cases second with
    | done => cases read
    | space blank => cases (readToken?_of_isSpace blank).symm.trans read
    | token same others =>
      cases read.symm.trans same
      rw [ih others]

end Turtle

theorem isRefusedInIri_eq_false_iff {c : Char} :
    isRefusedInIri c = false ↔ Turtle.isIriChar c = true ∧ c ≠ '\x7f' := by
  have above : ¬ c ≤ ' ' ↔ 0x20 < c.toNat := by
    rw [Char.not_le]
    rfl
  have delimiters : "<>\"\x7b\x7d|^\x60\\".toList = ['<', '>', '"', '\x7b', '\x7d', '|', '^', '\x60', '\\'] := rfl
  simp only [isRefusedInIri, Turtle.isIriChar, delimiters, Bool.or_eq_false_iff, Bool.and_eq_true,
    decide_eq_false_iff_not, decide_eq_true_eq, above, beq_eq_false_iff_ne, Bool.not_eq_true']
  tauto

theorem iriChar_of_not_isRefusedInIri {c : Char} (kept : isRefusedInIri c = false) : iriChar c = [c] := by
  rw [iriChar, kept]
  rfl

/-- What is written for a character may stand in an IRI. -/
theorem not_isRefusedInIri_of_mem_iriChar {c d : Char} (member : d ∈ iriChar c) : isRefusedInIri d = false := by
  have digits : ∀ code < 128,
      (Text.hexDigits Text.hexDigitUpper 2 code).all (!isRefusedInIri ·) = true := by
    decide +kernel
  unfold iriChar at member
  split at member
  · rename_i refused
    rcases List.mem_cons.mp member with rfl | isDigit
    · decide
    · simpa using List.all_eq_true.mp (digits _ (lt_of_isRefusedInIri refused)) d isDigit
  · rename_i kept
    rw [List.mem_singleton.mp member]
    simpa using kept

theorem not_isRefusedInIri_of_mem_escapeIri {text : String} {c : Char} (member : c ∈ (escapeIri text).toList) :
    isRefusedInIri c = false := by
  rw [escapeIri, String.toList_ofList] at member
  obtain ⟨original, _, written⟩ := List.mem_flatMap.mp member
  exact not_isRefusedInIri_of_mem_iriChar written

/-- An IRI that holds no refused character is left as it is. -/
theorem escapeIri_of_forall {text : String} (kept : ∀ c ∈ text.toList, isRefusedInIri c = false) :
    escapeIri text = text := by
  have each : text.toList.flatMap iriChar = text.toList.flatMap fun c => [c] :=
    List.flatMap_congr fun c member => iriChar_of_not_isRefusedInIri (kept c member)
  rw [escapeIri, each, List.flatMap_singleton', String.ofList_toList]

/-- Escaping an IRI again changes nothing. -/
theorem escapeIri_escapeIri (text : String) : escapeIri (escapeIri text) = escapeIri text :=
  escapeIri_of_forall fun _ => not_isRefusedInIri_of_mem_escapeIri

namespace Turtle

theorem readIri?_escapeIri (text : String) (rest : List Char) :
    readIri? ((escapeIri text).toList ++ '>' :: rest) = some ((escapeIri text).toList, rest) := by
  have kept : ∀ c ∈ (escapeIri text).toList, isIriChar c = true := fun c member =>
    (isRefusedInIri_eq_false_iff.mp (not_isRefusedInIri_of_mem_escapeIri member)).1
  have closing : isIriChar '>' = false := rfl
  simp only [readIri?, List.dropWhile_append_of_pos kept, List.takeWhile_append_of_pos kept,
    List.dropWhile_cons, List.takeWhile_cons, closing, Bool.false_eq_true, if_false, List.append_nil]

/-- A character is read back from how it is written between quotes. -/
theorem readLiteral?_quoteChar (c : Char) (cs : List Char) :
    readLiteral? (Json.quoteChar c ++ cs) = (readLiteral? cs).map fun (text, rest) => (c :: text, rest) := by
  obtain ⟨letter, written, short⟩ | ⟨h1, h2, h3, h4, written, read, control⟩ | ⟨written, printable, quote, backslash⟩ :=
    Json.quoteChar_cases c
  · simp only [Json.shortEscapes, List.mem_cons, Prod.mk.injEq, List.not_mem_nil, or_false] at short
    rw [written]
    rcases short with ⟨rfl, rfl⟩ | ⟨rfl, rfl⟩ | ⟨rfl, rfl⟩ | ⟨rfl, rfl⟩ | ⟨rfl, rfl⟩ | ⟨rfl, rfl⟩ | ⟨rfl, rfl⟩ <;>
      simp [readLiteral?, shortEscape?]
  · have isCode : Text.codePoint? c.toNat = some c := by
      rw [Text.codePoint?, if_neg (by omega), Char.ofNat_toNat]
    rw [written]
    simp only [List.cons_append, List.nil_append, readLiteral?, read, Option.bind_some, isCode]
  · have noBreak : c ≠ '\n' ∧ c ≠ '\r' := by
      constructor <;> (rintro rfl; exact absurd printable (by decide))
    rw [written, List.singleton_append, readLiteral?]
    · rw [if_neg]
      simp [backslash, noBreak]
    all_goals simp [quote, backslash]

theorem readToken?_quote (text : String) (rest : List Char) :
    readToken? (Json.quote text ++ rest) = some (.literal text, rest) := by
  have read (cs : List Char) : readLiteral? (cs.flatMap Json.quoteChar ++ '"' :: rest) = some (cs, rest) := by
    induction cs with
    | nil => simp [readLiteral?]
    | cons c others ih =>
      rw [List.flatMap_cons, List.append_assoc, readLiteral?_quoteChar, ih]
      rfl
  simp [Json.quote, readToken?, read]

/-- Whether a character may stand anywhere in a word: it neither ends the word nor starts another token. -/
def isWordChar (c : Char) : Bool :=
  !isSpace c && c != '<' && c != '"'

/-- Whether a text is read as one word. -/
def isWord (text : String) : Bool :=
  !text.toList.isEmpty && text.toList.all isWordChar

/-- What follows a token that ends at a blank. -/
def IsSeparated (rest : List Char) : Prop :=
  ∀ c ∈ rest.head?, isSpace c = true

theorem readToken?_word {text : String} (word : isWord text = true) {rest : List Char}
    (separated : IsSeparated rest) : readToken? (text.toList ++ rest) = some (.word text, rest) := by
  rw [isWord, Bool.and_eq_true, List.all_eq_true] at word
  obtain ⟨present, each⟩ := word
  have inner : ∀ c ∈ text.toList, (!isSpace c) = true := by
    intro c member
    have := each c member
    simp_all [isWordChar]
  have ends : rest.takeWhile (!isSpace ·) = [] ∧ rest.dropWhile (!isSpace ·) = rest := by
    cases rest with
    | nil => exact ⟨rfl, rfl⟩
    | cons c others => simp [separated c rfl]
  cases chars : text.toList with
  | nil => simp [chars] at present
  | cons first others =>
    have start := each first (chars ▸ List.mem_cons_self)
    rw [← chars]
    unfold readToken?
    split
    · simp_all [isWordChar]
    · simp_all [isWordChar]
    · rw [List.takeWhile_append_of_pos inner, List.dropWhile_append_of_pos inner, ends.1, ends.2,
        List.append_nil, chars]
      simp [← chars]

end Turtle

namespace TurtleToken

/-- The token that is read where one is written: the refused characters of an IRI stay encoded. -/
def asRead : TurtleToken → TurtleToken
  | .iri text => .iri (escapeIri text)
  | .literal text => .literal text
  | .word text => .word text

/-- Whether a token is written as one token. -/
def isLexical : TurtleToken → Bool
  | .word text => Turtle.isWord text
  | _ => true

/-- A token is read where it is written. -/
theorem readToken?_chars {token : TurtleToken} (lexical : token.isLexical = true) {rest : List Char}
    (separated : Turtle.IsSeparated rest) :
    Turtle.readToken? (token.chars ++ rest) = some (token.asRead, rest) := by
  cases token with
  | iri text => simp [chars, asRead, Turtle.readToken?, Turtle.readIri?_escapeIri]
  | literal text => exact Turtle.readToken?_quote text rest
  | word text => exact Turtle.readToken?_word lexical separated

end TurtleToken

namespace Turtle

/-- The tokens that are read from lines. -/
def tokensOf (lines : List TurtleLine) : List TurtleToken :=
  lines.flatMap fun line => line.tokens.map TurtleToken.asRead

theorem ReadsAs.indented {rest : List Char} {tokens : List TurtleToken} (others : ReadsAs rest tokens)
    (count : Nat) : ReadsAs (List.replicate count ' ' ++ rest) tokens := by
  induction count with
  | zero => exact others
  | succ count ih => exact .space rfl ih

/-- Tokens with spaces between them and a line break behind them are read one after the other. -/
theorem ReadsAs.line {tokens : List TurtleToken} (lexical : tokens.all TurtleToken.isLexical = true)
    {rest : List Char} {others : List TurtleToken} (behind : ReadsAs rest others) :
    ReadsAs ([' '].intercalate (tokens.map TurtleToken.chars) ++ '\n' :: rest)
      (tokens.map TurtleToken.asRead ++ others) := by
  induction tokens with
  | nil => exact .space rfl behind
  | cons token tokens ih =>
    rw [List.all_cons, Bool.and_eq_true] at lexical
    obtain ⟨first, others⟩ := lexical
    have later := ih others
    cases tokens with
    | nil =>
      have separated : IsSeparated ('\n' :: rest) := by simp [IsSeparated, isSpace]
      simp only [List.map_cons, List.map_nil, List.intercalate_singleton, List.singleton_append]
      exact .token (TurtleToken.readToken?_chars first separated) (.space rfl behind)
    | cons next tokens =>
      have separated (cs : List Char) : IsSeparated (' ' :: cs) := by simp [IsSeparated, isSpace]
      simp only [List.map_cons, List.intercalate_cons_cons, List.append_assoc, List.cons_append] at later ⊢
      exact .token (TurtleToken.readToken?_chars first (separated _)) (.space rfl later)

/-- Whether all tokens of lines are written as one token each. -/
def areLexical (lines : List TurtleLine) : Bool :=
  lines.all fun line => line.tokens.all TurtleToken.isLexical

/-- Lines of tokens are read as these tokens. -/
theorem readsAs_of_areLexical {lines : List TurtleLine} (lexical : areLexical lines = true) :
    ReadsAs (lines.flatMap TurtleLine.chars) (tokensOf lines) := by
  induction lines with
  | nil => exact .done
  | cons line lines ih =>
    rw [areLexical, List.all_cons, Bool.and_eq_true] at lexical
    have first := ((ih lexical.2).line lexical.1).indented line.indentation
    simpa [TurtleLine.chars, tokensOf] using first

end Turtle

end ClassSchema
