import ClassSchema.Yaml.Cursor
import ClassSchema.Yaml.Escape
import ClassSchema.Yaml.Token

/-! # Text of scalars

Plain and quoted scalars may go over several lines: a single break between words reads as a space, and
further breaks are kept. Block scalars are read line by line below an indentation that is given or
taken from the first line; the folded form joins lines as plain text does, the literal form keeps
them. A chomping sign decides what becomes of the breaks at the end.
-/

namespace ClassSchema.Yaml

/-- White space that was read since the last word: blanks on the same line, or breaks. -/
structure Gap where
  /-- Blanks before the first break. -/
  blanks : List Char
  /-- Whether a break was read. -/
  broken : Bool
  /-- The first break; empty when it was escaped. -/
  firstBreak : List Char
  /-- The further breaks. -/
  moreBreaks : List Char

namespace Gap

/-- No white space. -/
def none : Gap := ⟨[], false, [], []⟩

/-- The gap after an escaped break, which contributes nothing itself. -/
def escaped : Gap := ⟨[], true, [], []⟩

/-- The gap with one more blank; blanks after a break do not count. -/
def addBlank (gap : Gap) (c : Char) : Gap :=
  if gap.broken then gap else { gap with blanks := gap.blanks ++ [c] }

/-- The gap with one more break. -/
def addBreak (gap : Gap) (c : Char) : Gap :=
  let content := if c == '\u2028' || c == '\u2029' then c else '\n'
  if gap.broken then { gap with moreBreaks := gap.moreBreaks ++ [content] }
  else ⟨[], true, [content], []⟩

/-- What lines broken at `firstBreak` and `moreBreaks` are joined by. -/
def foldBreaks (firstBreak moreBreaks : List Char) : List Char :=
  if firstBreak = ['\n'] then (if moreBreaks.isEmpty then [' '] else moreBreaks)
  else firstBreak ++ moreBreaks

/-- What the gap stands for between two words. -/
def text (gap : Gap) : List Char :=
  if gap.broken then foldBreaks gap.firstBreak gap.moreBreaks else gap.blanks

end Gap

/-- Flow indicators that end a plain scalar inside a flow collection. -/
def isFlowIndicator (c : Char) : Bool :=
  c == ',' || c == '[' || c == ']' || c == '\x7b' || c == '\x7d'

/-- Whether a plain scalar ends before a word that starts here. -/
def endsBeforeWord (inFlow : Bool) (indent : Int) (mark : Mark) (text : List Char) (cs : List Char) :
    Bool :=
  (!text.isEmpty && !inFlow && mark.column < indent) || (mark.column == 0 && atDocumentMark cs) ||
    cs.head? == some '#'

/-- Whether a plain scalar ends before this character, within a word or at its start. -/
def endsBeforeChar (inFlow : Bool) (c : Char) (rest : List Char) : Bool :=
  (c == ':' && atBlankOrEnd rest) || (inFlow && isFlowIndicator c)

/-- Whether a colon inside a flow collection stands before an indicator, which is refused. -/
def isMisplacedColon (inFlow : Bool) (c : Char) (rest : List Char) : Bool :=
  inFlow && c == ':' && rest.head?.any fun next => isFlowIndicator next || next == '?'

/-- Read on in a plain scalar of which `text` was read, in reverse. The result is the whole text,
whether a break was read after it, and the position after that white space. -/
def plainRest? (inFlow : Bool) (indent : Int) (cs : List Char) (mark : Mark) (text : List Char)
    (gap : Gap) (inWord : Bool) : Option (List Char × Bool × Cursor) :=
  match cs with
  | [] => some (text.reverse, gap.broken, ⟨mark, []⟩)
  | '\r' :: '\n' :: rest =>
    plainRest? inFlow indent rest (mark.nextLine 2) text (gap.addBreak '\n') false
  | c :: rest =>
    if isBreak c then plainRest? inFlow indent rest (mark.nextLine 1) text (gap.addBreak c) false
    else if isBlank c then
      if gap.broken && decide ((mark.column : Int) < indent) && c == '\t' then none
      else plainRest? inFlow indent rest (mark.forward 1) text (gap.addBlank c) false
    else if !inWord && endsBeforeWord inFlow indent mark text (c :: rest) then
      some (text.reverse, gap.broken, ⟨mark, c :: rest⟩)
    else if isMisplacedColon inFlow c rest then none
    else if endsBeforeChar inFlow c rest then some (text.reverse, gap.broken, ⟨mark, c :: rest⟩)
    else plainRest? inFlow indent rest (mark.forward 1) (c :: gap.text.reverse ++ text) Gap.none true

/-- The text of a plain scalar, whether a break was read after it, and the position after it. -/
def plainScalar? (inFlow : Bool) (indent : Int) (cursor : Cursor) :
    Option (List Char × Bool × Cursor) :=
  plainRest? inFlow (indent + 1) cursor.rest cursor.mark [] Gap.none false

/-- Read on in a single-quoted scalar; a quote inside it is written twice. `passed` says that the
next character was already taken into account. -/
def singleQuotedRest? (cs : List Char) (mark : Mark) (text : List Char) (gap : Gap) (passed : Bool) :
    Option (List Char × Cursor) :=
  match cs with
  | [] => none
  | '\r' :: '\n' :: rest => singleQuotedRest? rest (mark.nextLine 2) text (gap.addBreak '\n') false
  | c :: rest =>
    if passed then singleQuotedRest? rest (mark.forward 1) text gap false
    else if isBreak c then singleQuotedRest? rest (mark.nextLine 1) text (gap.addBreak c) false
    else if isBlank c then singleQuotedRest? rest (mark.forward 1) text (gap.addBlank c) false
    else if mark.column == 0 && atDocumentMark (c :: rest) then none
    else
      let text := gap.text.reverse ++ text
      if c == '\'' then
        if rest.head? == some '\'' then
          singleQuotedRest? rest (mark.forward 1) ('\'' :: text) Gap.none true
        else some (text.reverse, ⟨mark.forward 1, rest⟩)
      else singleQuotedRest? rest (mark.forward 1) (c :: text) Gap.none false

/-- Read on in a double-quoted scalar. `passed` characters were already taken into account, as parts
of an escape. -/
def doubleQuotedRest? (cs : List Char) (mark : Mark) (text : List Char) (gap : Gap) (passed : Nat) :
    Option (List Char × Cursor) :=
  match cs with
  | [] => none
  | '\r' :: '\n' :: rest => doubleQuotedRest? rest (mark.nextLine 2) text (gap.addBreak '\n') 0
  | '\\' :: rest =>
    match passed with
    | passed + 1 => doubleQuotedRest? rest (mark.forward 1) text gap passed
    | 0 =>
      let text := gap.text.reverse ++ text
      match rest with
      | [] => none
      | '\r' :: '\n' :: rest => doubleQuotedRest? rest (mark.nextLine 3) text Gap.escaped 0
      | c :: rest =>
        if isBreak c then doubleQuotedRest? rest (mark.nextLine 2) text Gap.escaped 0
        else
          match readEscape? (c :: rest) with
          | none => none
          | some (escaped, width, _) =>
            doubleQuotedRest? rest (mark.forward 2) (escaped :: text) Gap.none (width - 1)
  | c :: rest =>
    match passed with
    | passed + 1 => doubleQuotedRest? rest (mark.forward 1) text gap passed
    | 0 =>
      if isBreak c then doubleQuotedRest? rest (mark.nextLine 1) text (gap.addBreak c) 0
      else if isBlank c then doubleQuotedRest? rest (mark.forward 1) text (gap.addBlank c) 0
      else if mark.column == 0 && atDocumentMark (c :: rest) then none
      else
        let text := gap.text.reverse ++ text
        if c == '"' then some (text.reverse, ⟨mark.forward 1, rest⟩)
        else doubleQuotedRest? rest (mark.forward 1) (c :: text) Gap.none 0

/-- The text of a quoted scalar whose opening quote comes next, and the position after it. -/
def quotedScalar? (single : Bool) (cursor : Cursor) : Option (List Char × Cursor) :=
  let inside := cursor.skip
  if single then singleQuotedRest? inside.rest inside.mark [] Gap.none false
  else doubleQuotedRest? inside.rest inside.mark [] Gap.none 0

/-- What becomes of the breaks at the end of a block scalar. -/
inductive Chomping where
  | clip
  | strip
  | keep
deriving DecidableEq, Repr

/-- The chomping sign, if one comes next. -/
def chomping? (cursor : Cursor) : Option (Chomping × Cursor) :=
  match cursor.rest with
  | '+' :: _ => some (.keep, cursor.skip)
  | '-' :: _ => some (.strip, cursor.skip)
  | _ => none

/-- The indentation digit, zero when none comes next; the digit zero is refused. -/
def indentDigit? (cursor : Cursor) : Option (Nat × Cursor) :=
  match cursor.rest with
  | c :: _ =>
    if c == '0' then none
    else if c.isDigit then some (c.toNat - '0'.toNat, cursor.skip)
    else some (0, cursor)
  | [] => some (0, cursor)

/-- The chomping and the indentation digit of a block scalar, in either order. -/
def blockHeader? (cursor : Cursor) : Option (Chomping × Nat × Cursor) :=
  match chomping? cursor with
  | some (chomping, cursor) => (indentDigit? cursor).map fun (digit, cursor) => (chomping, digit, cursor)
  | none =>
    (indentDigit? cursor).map fun (digit, cursor) =>
      if digit = 0 then (.clip, 0, cursor)
      else
        match chomping? cursor with
        | some (chomping, cursor) => (chomping, digit, cursor)
        | none => (.clip, digit, cursor)

/-- Skip blanks and a comment up to the end of the line, and the break; anything else is refused. -/
def restOfLine? (cursor : Cursor) : Option Cursor :=
  let cursor := cursor.skipWhile isBlank
  let cursor :=
    if cursor.rest.head? == some '#' then cursor.skipWhile (fun c => !isBreak c) else cursor
  if atBreakOrEnd cursor.rest then some cursor.readBreak.2 else none

/-- Read empty lines and the indentation of the next one. An `indent` of zero is not known yet; the
result holds the breaks, the greatest column met and the position. A tab in the indentation is
refused. -/
def emptyLines? (fuel indent : Nat) (cursor : Cursor) (greatest : Nat) (breaks : List Char) :
    Option (List Char × Nat × Cursor) :=
  match fuel with
  | 0 => none
  | fuel + 1 =>
    let spaces := (cursor.rest.takeWhile (· == ' ')).length
    let cursor :=
      cursor.skipMany (if indent = 0 then spaces else min spaces (indent - cursor.column))
    let greatest := max greatest cursor.column
    if (indent == 0 || cursor.column < indent) && cursor.rest.head? == some '\t' then none
    else
      match cursor.readBreak with
      | ([], _) => some (breaks, greatest, cursor)
      | (lineBreak, next) => emptyLines? fuel indent next greatest (breaks ++ lineBreak)

/-- Whether a blank comes next. -/
def atBlank (cursor : Cursor) : Bool :=
  cursor.rest.head?.any isBlank

/-- Read the lines of a block scalar at `indent`. The result is the text so far, the break of the last
line, the breaks after it, and the position. -/
def blockLines? (fuel : Nat) (literal : Bool) (indent : Nat) (cursor : Cursor) (text : List Char)
    (lastBreak moreBreaks : List Char) (afterBlank : Bool) :
    Option (List Char × List Char × List Char × Cursor) :=
  match fuel with
  | 0 => none
  | fuel + 1 =>
    if cursor.column = indent ∧ cursor.rest ≠ [] then
      let startsBlank := atBlank cursor
      let joint :=
        if !literal && !afterBlank && !startsBlank then Gap.foldBreaks lastBreak moreBreaks
        else lastBreak ++ moreBreaks
      let (line, afterLine) := cursor.spanWhile (fun c => !isBreak c)
      let (lineBreak, nextStart) := afterLine.readBreak
      match emptyLines? (nextStart.rest.length + 1) indent nextStart 0 [] with
      | none => none
      | some (breaks, _, next) =>
        blockLines? fuel literal indent next (text ++ joint ++ line) lineBreak breaks startsBlank
    else some (text, lastBreak, moreBreaks, cursor)

/-- The text of a block scalar whose indicator comes next, and the position after it. `parent` is the
indentation of the collection around it. -/
def blockScalar? (literal : Bool) (parent : Int) (cursor : Cursor) : Option (List Char × Cursor) := do
  let (chomping, digit, cursor) ← blockHeader? cursor.skip
  let cursor ← restOfLine? cursor
  let given := if digit = 0 then 0 else (max parent 0).toNat + digit
  let (breaks, greatest, cursor) ← emptyLines? (cursor.rest.length + 1) given cursor 0 []
  let indent := if given = 0 then max greatest (max (parent + 1).toNat 1) else given
  let (text, lastBreak, moreBreaks, cursor) ←
    blockLines? (cursor.rest.length + 1) literal indent cursor [] [] breaks false
  let ending :=
    match chomping with
    | .strip => []
    | .clip => lastBreak
    | .keep => lastBreak ++ moreBreaks
  return (text ++ ending, cursor)

end ClassSchema.Yaml
