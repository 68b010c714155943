import ClassSchema.Yaml.ScalarText

/-! # The tokens of a text

Tokens are found from left to right. A mapping key without an indicator shows as one only at the colon
after it, so the place where such a key may have started is remembered, and the key token is inserted
there once the colon is met. A remembered key must be on the colon's line and at most 1024 characters
before it.

Where the text cannot be read, the tokens before that point are given, up to the first place that might
still have become a key.
-/

namespace ClassSchema.Yaml

/-- A place where a key without an indicator may have started. -/
structure PossibleKey where
  /-- How many tokens stand before it. -/
  tokensBefore : Nat
  /-- Whether the block structure demands that it be a key. -/
  required : Bool
  mark : Mark
deriving Repr

/-- What is known in the midst of a text. -/
structure TokenState where
  cursor : Cursor
  /-- The tokens so far, the last one first. -/
  produced : List Token
  /-- The indentation of the block collection around, -1 outside all. -/
  indent : Int
  /-- The indentations of the collections further out, the nearest first. -/
  outer : List Int
  /-- Whether a key without an indicator may start here. -/
  keyAllowed : Bool
  /-- The possible key of each flow collection around and of the block context, the inmost first. -/
  keys : List (Option PossibleKey)

namespace TokenState

/-- The state before a text. -/
def start (text : List Char) : TokenState :=
  ⟨Cursor.start text, [], -1, [], true, [none]⟩

/-- Whether a flow collection is open. -/
def inFlow (state : TokenState) : Bool :=
  1 < state.keys.length

/-- Whether an indicator at the start of `cs` stands alone, as it must outside flow collections. -/
def standsAlone (state : TokenState) (rest : List Char) : Bool :=
  state.inFlow || atBlankOrEnd rest

/-- The state with one more token. -/
def push (state : TokenState) (token : Token) : TokenState :=
  { state with produced := token :: state.produced }

/-- The state with a token inserted behind the first `count` ones. -/
def insertAfter (state : TokenState) (count : Nat) (token : Token) : TokenState :=
  let later := state.produced.length - count
  { state with produced := state.produced.take later ++ token :: state.produced.drop later }

/-- Open a block collection at `column` unless one is open there; its start token goes behind the
first `count` tokens. -/
def openBlock (state : TokenState) (column count : Nat) (token : Token) : TokenState :=
  if !state.inFlow && decide (state.indent < column) then
    { state.insertAfter count token with indent := column, outer := state.indent :: state.outer }
  else state

/-- Close the block collections that are indented deeper than `column`. -/
def closeBlocks (state : TokenState) (column : Int) : TokenState :=
  if state.inFlow then state
  else
    let indents := state.indent :: state.outer
    let closed := (indents.takeWhile fun indent => column < indent).length
    match indents.drop closed with
    | [] => state
    | indent :: outer =>
      { state with
        produced := List.replicate closed .blockEnd ++ state.produced
        indent := indent
        outer := outer }

/-- Forget the inmost possible key; a required one is missed. -/
def dropKey? (state : TokenState) : Option TokenState :=
  match state.keys with
  | some key :: keys => if key.required then none else some { state with keys := none :: keys }
  | _ => some state

/-- Remember that a key may start here. -/
def noteKey? (state : TokenState) : Option TokenState :=
  if state.keyAllowed then
    let required := !state.inFlow && decide (state.indent = state.cursor.column)
    (state.dropKey?).map fun state =>
      { state with keys := some ⟨state.produced.length, required, state.cursor.mark⟩ :: state.keys.tail }
  else some state

/-- Whether a possible key is too far back to become one. -/
def isStale (mark : Mark) (key : PossibleKey) : Bool :=
  key.mark.line < mark.line || key.mark.index + 1024 < mark.index

/-- Forget the possible keys that are too far back; a required one is missed. -/
def dropStaleKeys? (state : TokenState) : Option TokenState :=
  let stale (key : PossibleKey) : Bool := isStale state.cursor.mark key
  if state.keys.any fun key => key.any fun key => key.required && stale key then none
  else some { state with keys := state.keys.map fun key => key.filter fun key => !stale key }

/-- The state after `count` characters of the line, with the permission for a key given. -/
def advance (state : TokenState) (count : Nat) (keyAllowed : Bool) : TokenState :=
  { state with cursor := state.cursor.skipMany count, keyAllowed := keyAllowed }

end TokenState

/-- Skip white space and comments. Outside flow collections a break allows a key, and a tab is skipped
only where none is allowed. -/
def skipToToken (inFlow : Bool) (cs : List Char) (mark : Mark) (keyAllowed inComment : Bool) :
    Cursor × Bool :=
  match cs with
  | [] => (⟨mark, []⟩, keyAllowed)
  | '\r' :: '\n' :: rest => skipToToken inFlow rest (mark.nextLine 2) (keyAllowed || !inFlow) false
  | c :: rest =>
    if isBreak c then skipToToken inFlow rest (mark.nextLine 1) (keyAllowed || !inFlow) false
    else if inComment then skipToToken inFlow rest (mark.forward 1) keyAllowed true
    else if c == ' ' || (c == '\t' && (inFlow || !keyAllowed)) || (c == '\ufeff' && mark.index == 0) then
      skipToToken inFlow rest (mark.forward 1) keyAllowed false
    else if c == '#' then skipToToken inFlow rest (mark.forward 1) keyAllowed true
    else (⟨mark, c :: rest⟩, keyAllowed)

/-- The number of a version, of at most nine digits. -/
def versionNumber? (cursor : Cursor) : Option (Nat × Cursor) :=
  let (run, next) := cursor.spanWhile Char.isDigit
  if run.isEmpty || 9 < run.length then none
  else some (run.foldl (fun value c => value * 10 + (c.toNat - '0'.toNat)) 0, next)

/-- Characters of tags besides percent escapes; a verbatim tag may also hold some flow indicators. -/
def isTagChar (verbatim : Bool) (c : Char) : Bool :=
  isWordChar c || ";/?:@&=+$.!~*'()".toList.contains c || (verbatim && ",[]".toList.contains c)

/-- One octet of a percent escape. -/
def tagOctet? : List Char → Option (Nat × List Char)
  | '%' :: a :: b :: rest => (Text.hexNumber? [a, b]).map (·, rest)
  | _ => none

/-- The octets after the first one of an escaped character. -/
def tagTrail? (count value : Nat) (cs : List Char) : Option (Nat × List Char) :=
  match count with
  | 0 => some (value, cs)
  | count + 1 =>
    match tagOctet? cs with
    | some (octet, rest) =>
      if 0x80 ≤ octet ∧ octet < 0xc0 then tagTrail? count (value * 64 + (octet - 0x80)) rest else none
    | none => none

/-- A character that a tag spells as percent escapes of its UTF-8 octets. -/
def tagEscape? (cs : List Char) : Option (Char × List Char) := do
  let (octet, rest) ← tagOctet? cs
  let (trail, value) ←
    if octet < 0x80 then some (0, octet)
    else if 0xc0 ≤ octet ∧ octet < 0xe0 then some (1, octet - 0xc0)
    else if 0xe0 ≤ octet ∧ octet < 0xf0 then some (2, octet - 0xe0)
    else if 0xf0 ≤ octet ∧ octet < 0xf8 then some (3, octet - 0xf0)
    else none
  let (code, rest) ← tagTrail? trail value rest
  return (Char.ofNat code, rest)

/-- The characters of a tag, with escapes decoded, and what follows them. -/
def tagChars? (fuel : Nat) (verbatim : Bool) (cs : List Char) : Option (List Char × List Char) :=
  match fuel, cs with
  | 0, cs => some ([], cs)
  | _, [] => some ([], [])
  | fuel + 1, c :: rest =>
    if c == '%' then do
      let (decoded, rest) ← tagEscape? (c :: rest)
      let (decodedRest, rest) ← tagChars? fuel verbatim rest
      return (decoded :: decodedRest, rest)
    else if isTagChar verbatim c then (tagChars? fuel verbatim rest).map fun (cs, rest) => (c :: cs, rest)
    else some ([], c :: rest)

/-- The text of a tag from here on, and the position after it. -/
def tagText? (verbatim : Bool) (cursor : Cursor) : Option (List Char × Cursor) :=
  (tagChars? cursor.rest.length verbatim cursor.rest).map fun (cs, rest) =>
    (cs, cursor.skipMany (cursor.rest.length - rest.length))

/-- A tag handle: an exclamation mark, word characters, and a second mark if one follows. -/
def tagHandle? (cursor : Cursor) : Option (List Char × Cursor) :=
  if cursor.rest.head? == some '!' then
    let (word, next) := cursor.skip.spanWhile isWordChar
    if next.rest.head? == some '!' then some ('!' :: word ++ ['!'], next.skip)
    else some ('!' :: word, next)
  else none

/-- The handle and the suffix of the tag that comes next, and the position after it. A verbatim tag
has no handle, and a lone exclamation mark is a suffix. -/
def tagParts? (cursor : Cursor) : Option (List Char × List Char × Cursor) :=
  match cursor.rest with
  | '!' :: '<' :: _ => do
    let (text, next) ← tagText? true (cursor.skipMany 2)
    if text.isEmpty || next.rest.head? != some '>' then none else some ([], text, next.skip)
  | _ => do
    let (handle, afterHandle) ← tagHandle? cursor
    let (text, next) ← tagText? false afterHandle
    if 1 < handle.length && handle.getLast? == some '!' then
      if text.isEmpty then none else some (handle, text, next)
    else
      let suffix := handle.tail ++ text
      if suffix.isEmpty then some ([], ['!'], next) else some (['!'], suffix, next)

/-- The tag that comes next, and the position after it. -/
def tag? (inFlow : Bool) (cursor : Cursor) : Option (Token × Cursor) := do
  let (handle, suffix, next) ← tagParts? cursor
  if atBlankOrEnd next.rest || (inFlow && next.rest.head? == some ',') then
    some (.tag (String.ofList handle) (String.ofList suffix), next)
  else none

/-- The directive whose percent sign comes next, and the position on the line after it. -/
def directive? (cursor : Cursor) : Option (Token × Cursor) := do
  let (name, afterName) := cursor.skip.spanWhile isWordChar
  if !atBlankOrEnd afterName.rest then none
  else
    let value := afterName.skipWhile isBlank
    if String.ofList name == "YAML" then
      let (major, afterMajor) ← versionNumber? value
      if afterMajor.rest.head? != some '.' then none
      else
        let (minor, afterMinor) ← versionNumber? afterMajor.skip
        return (.versionDirective major minor, ← restOfLine? afterMinor)
    else if String.ofList name == "TAG" then
      let (handle, afterHandle) ← tagHandle? value
      if (1 < handle.length && handle.getLast? != some '!') || !atBlank afterHandle then none
      else
        let (expansion, next) ← tagText? true (afterHandle.skipWhile isBlank)
        if expansion.isEmpty || !atBlankOrEnd next.rest then none
        else
          return (.tagDirective (String.ofList handle) (String.ofList expansion), ← restOfLine? next)
    else none

/-- The name of the anchor or alias whose indicator comes next, and the position after it. -/
def anchorName? (cursor : Cursor) : Option (String × Cursor) :=
  let (name, next) := cursor.skip.spanWhile isWordChar
  let ends := atBlankOrEnd next.rest || next.rest.head?.any fun c => "?:,]\x7d%@\x60".toList.contains c
  if name.isEmpty || !ends then none else some (String.ofList name, next)

namespace TokenState

/-- The state after a token that ends at `next` and may itself be a key. -/
def pushKeyToken? (state : TokenState) (found : Option (Token × Cursor)) : Option TokenState := do
  let state ← state.noteKey?
  let (token, next) ← found
  return { state.push token with cursor := next, keyAllowed := false }

/-- The end of the text. -/
def pushStreamEnd? (state : TokenState) : Option TokenState := do
  let state ← (state.closeBlocks (-1)).dropKey?
  return { state.push .streamEnd with keyAllowed := false }

/-- A directive. -/
def pushDirective? (state : TokenState) : Option TokenState := do
  let state ← (state.closeBlocks (-1)).dropKey?
  let (token, next) ← directive? state.cursor
  return { state.push token with cursor := next, keyAllowed := false }

/-- A mark between documents. -/
def pushDocumentMark? (state : TokenState) : Option TokenState := do
  let token := if state.cursor.rest.head? == some '-' then Token.documentStart else .documentEnd
  let state ← (state.closeBlocks (-1)).dropKey?
  return (state.push token).advance 3 false

/-- The opening of a flow collection. -/
def pushFlowStart? (state : TokenState) (token : Token) : Option TokenState := do
  let state ← state.noteKey?
  return { (state.push token).advance 1 true with keys := none :: state.keys }

/-- The closing of a flow collection. -/
def pushFlowEnd? (state : TokenState) (token : Token) : Option TokenState := do
  let state ← state.dropKey?
  let keys := if state.inFlow then state.keys.tail else state.keys
  return { (state.push token).advance 1 false with keys := keys }

/-- The comma between entries of a flow collection. -/
def pushFlowEntry? (state : TokenState) : Option TokenState := do
  let state ← state.dropKey?
  return (state.push .flowEntry).advance 1 true

/-- The hyphen before an entry of a block sequence. -/
def pushBlockEntry? (state : TokenState) : Option TokenState := do
  if !state.inFlow && !state.keyAllowed then none
  else
    let opened := state.openBlock state.cursor.column state.produced.length .blockSequenceStart
    let state ← opened.dropKey?
    return (state.push .blockEntry).advance 1 true

/-- The question mark before a key. -/
def pushKey? (state : TokenState) : Option TokenState := do
  if !state.inFlow && !state.keyAllowed then none
  else
    let opened := state.openBlock state.cursor.column state.produced.length .blockMappingStart
    let state ← opened.dropKey?
    return (state.push .key).advance 1 (!state.inFlow)

/-- The colon before a value: it makes a key of the inmost possible key, if there is one. -/
def pushValue? (state : TokenState) : Option TokenState :=
  match state.keys with
  | some key :: keys =>
    let keyed := state.insertAfter key.tokensBefore .key
    let opened := keyed.openBlock key.mark.column key.tokensBefore .blockMappingStart
    some { (opened.push .value).advance 1 false with keys := none :: keys }
  | _ =>
    if !state.inFlow && !state.keyAllowed then none
    else
      let opened := state.openBlock state.cursor.column state.produced.length .blockMappingStart
      some ((opened.push .value).advance 1 (!state.inFlow))

/-- A block scalar. -/
def pushBlockScalar? (state : TokenState) (literal : Bool) : Option TokenState := do
  let state ← state.dropKey?
  let (text, next) ← blockScalar? literal state.indent state.cursor
  let style := if literal then Style.literal else .folded
  return { state.push (.scalar style (String.ofList text)) with cursor := next, keyAllowed := true }

/-- A plain scalar; a break after it allows a key. -/
def pushPlainScalar? (state : TokenState) : Option TokenState := do
  let state ← state.noteKey?
  let (text, broken, next) ← plainScalar? state.inFlow state.indent state.cursor
  return { state.push (.scalar .plain (String.ofList text)) with cursor := next, keyAllowed := broken }

/-- Whether a plain scalar may start with `c`. -/
def startsPlain (state : TokenState) (c : Char) (rest : List Char) : Bool :=
  !(isBlank c || isBreak c || "-?:,[]\x7b\x7d#&*!|>'\"%@\x60".toList.contains c) ||
    (c == '-' && !rest.head?.any isBlank) ||
    (!state.inFlow && (c == '?' || c == ':') && !atBlankOrEnd rest)

/-- The token that starts at `c`. -/
def pushTokenAt? (state : TokenState) (c : Char) (rest : List Char) : Option TokenState :=
  let cursor := state.cursor
  if cursor.column == 0 && c == '%' then state.pushDirective?
  else if cursor.column == 0 && atDocumentMark (c :: rest) then state.pushDocumentMark?
  else if c == '[' then state.pushFlowStart? .flowSequenceStart
  else if c == '\x7b' then state.pushFlowStart? .flowMappingStart
  else if c == ']' then state.pushFlowEnd? .flowSequenceEnd
  else if c == '\x7d' then state.pushFlowEnd? .flowMappingEnd
  else if c == ',' then state.pushFlowEntry?
  else if c == '-' && atBlankOrEnd rest then state.pushBlockEntry?
  else if c == '?' && state.standsAlone rest then state.pushKey?
  else if c == ':' && state.standsAlone rest then state.pushValue?
  else if c == '*' then
    state.pushKeyToken? ((anchorName? cursor).map fun (name, next) => (.alias name, next))
  else if c == '&' then
    state.pushKeyToken? ((anchorName? cursor).map fun (name, next) => (.anchor name, next))
  else if c == '!' then state.pushKeyToken? (tag? state.inFlow cursor)
  else if c == '|' && !state.inFlow then state.pushBlockScalar? true
  else if c == '>' && !state.inFlow then state.pushBlockScalar? false
  else if c == '\'' then
    state.pushKeyToken? ((quotedScalar? true cursor).map fun (text, next) =>
      (.scalar .singleQuoted (String.ofList text), next))
  else if c == '"' then
    state.pushKeyToken? ((quotedScalar? false cursor).map fun (text, next) =>
      (.scalar .doubleQuoted (String.ofList text), next))
  else if state.startsPlain c rest then state.pushPlainScalar?
  else none

/-- The state after the next token, together with the tokens that its indentation implies. -/
def next? (state : TokenState) : Option TokenState := do
  let (cursor, keyAllowed) :=
    skipToToken state.inFlow state.cursor.rest state.cursor.mark state.keyAllowed false
  let state := { state with cursor := cursor, keyAllowed := keyAllowed }
  let state ← state.dropStaleKeys?
  let state := state.closeBlocks state.cursor.column
  match state.cursor.rest with
  | [] => state.pushStreamEnd?
  | c :: rest => state.pushTokenAt? c rest

/-- The tokens before the first place that may still become a key. -/
def settled (state : TokenState) : List Token :=
  let bound := (state.keys.filterMap id).foldl (fun bound key => min bound key.tokensBefore)
    state.produced.length
  state.produced.reverse.take bound

/-- The tokens of the whole text, or the settled ones where it cannot be read. -/
def run (fuel : Nat) (state : TokenState) : List Token :=
  match fuel with
  | 0 => state.settled
  | fuel + 1 =>
    match state.next? with
    | none => state.settled
    | some next => if next.produced.head? == some .streamEnd then next.produced.reverse else run fuel next

end TokenState

/-- The tokens of a text; only a text that can be read to its end has a `streamEnd`. A character that
YAML does not allow makes the whole text unreadable. -/
def tokens (text : String) : List Token :=
  let cs := text.toList
  if cs.all isReadable then (TokenState.start cs).run (cs.length + 1) else []

end ClassSchema.Yaml
