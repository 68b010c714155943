/-! # Reading positions in YAML text

A cursor is the text that is still to be read together with where it stands: how many characters were
read, the line, and the column. Line breaks are the line feed, the carriage return, the two together,
the next-line character and the Unicode line and paragraph separators; in content each of the first
four becomes a line feed.
-/

namespace ClassSchema.Yaml

/-- A space or a tab. -/
def isBlank (c : Char) : Bool :=
  c == ' ' || c == '\t'

/-- A character that ends a line. -/
def isBreak (c : Char) : Bool :=
  c == '\n' || c == '\r' || c == '\u0085' || c == '\u2028' || c == '\u2029'

/-- Whether YAML text may hold the character. -/
def isReadable (c : Char) : Bool :=
  c == '\t' || c == '\n' || c == '\r' || (' ' ≤ c && c ≤ '~') || c == '\u0085' ||
  (0xa0 ≤ c.toNat && c.toNat ≤ 0xd7ff) || (0xe000 ≤ c.toNat && c.toNat ≤ 0xfffd) ||
  0x10000 ≤ c.toNat

/-- A letter, digit, hyphen or underscore of ASCII, as anchors and tag handles use them. -/
def isWordChar (c : Char) : Bool :=
  c.isAlphanum || c == '_' || c == '-'

/-- Whether the text is at its end. -/
def atEnd (cs : List Char) : Bool :=
  cs.isEmpty

/-- Whether a break or the end of the text comes next. -/
def atBreakOrEnd : List Char → Bool
  | [] => true
  | c :: _ => isBreak c

/-- Whether a blank, a break or the end of the text comes next. -/
def atBlankOrEnd : List Char → Bool
  | [] => true
  | c :: _ => isBlank c || isBreak c

/-- Whether a line starts with three hyphens or three points that stand alone, which separate
documents. -/
def atDocumentMark : List Char → Bool
  | '-' :: '-' :: '-' :: rest => atBlankOrEnd rest
  | '.' :: '.' :: '.' :: rest => atBlankOrEnd rest
  | _ => false

/-- A position: how many characters were read, the line, and the column. -/
structure Mark where
  index : Nat
  line : Nat
  column : Nat
deriving DecidableEq, Repr

namespace Mark

/-- The position `count` characters further on the same line. -/
def forward (mark : Mark) (count : Nat) : Mark :=
  ⟨mark.index + count, mark.line, mark.column + count⟩

/-- The position at the start of the next line, `count` characters further. -/
def nextLine (mark : Mark) (count : Nat) : Mark :=
  ⟨mark.index + count, mark.line + 1, 0⟩

end Mark

/-- What is left of a text, and the position reached. -/
structure Cursor where
  mark : Mark
  rest : List Char
deriving Repr

namespace Cursor

/-- The position before a text. -/
def start (text : List Char) : Cursor :=
  ⟨⟨0, 0, 0⟩, text⟩

/-- The column reached. -/
def column (cursor : Cursor) : Nat :=
  cursor.mark.column

/-- The position after one character that is no break. -/
def skip (cursor : Cursor) : Cursor :=
  ⟨cursor.mark.forward 1, cursor.rest.tail⟩

/-- The position after `count` characters that are no breaks. -/
def skipMany (cursor : Cursor) (count : Nat) : Cursor :=
  ⟨cursor.mark.forward count, cursor.rest.drop count⟩

/-- The characters of the line that satisfy `p`, and the position after them. -/
def spanWhile (p : Char → Bool) (cursor : Cursor) : List Char × Cursor :=
  let run := cursor.rest.takeWhile p
  (run, cursor.skipMany run.length)

/-- The position after the characters of the line that satisfy `p`. -/
def skipWhile (p : Char → Bool) (cursor : Cursor) : Cursor :=
  (cursor.spanWhile p).2

/-- A break as it appears in content, if one comes next, and the position after it. -/
def readBreak (cursor : Cursor) : List Char × Cursor :=
  match cursor.rest with
  | '\r' :: '\n' :: rest => (['\n'], ⟨cursor.mark.nextLine 2, rest⟩)
  | c :: rest =>
    if c == '\u2028' || c == '\u2029' then ([c], ⟨cursor.mark.nextLine 1, rest⟩)
    else if isBreak c then (['\n'], ⟨cursor.mark.nextLine 1, rest⟩)
    else ([], cursor)
  | [] => ([], cursor)

end Cursor

end ClassSchema.Yaml
