import ClassSchema.Text.Hex

/-! # Texts of TOML

A basic text stands between double quotes and has escapes; a literal text stands between single quotes and
has none. Both may take several lines between three quotes each; then a line break behind the opening quotes
is left out, and up to two quotes may stand before the closing ones. In a basic text of several lines a
backslash at the end of a line takes away the blanks up to the next character.
-/

namespace ClassSchema.Toml

/-- Whether a character may stand in comments and texts; line breaks are apart. -/
def isTextChar (c : Char) : Bool :=
  c == '\t' || (0x20 ≤ c.toNat && c.toNat != 0x7f)

/-- Whether a character is a blank within a line. -/
def isSpace (c : Char) : Bool :=
  c == ' ' || c == '\t'

/-- What stands before the closing quote of one line, with escapes undone or not, and what follows it. -/
def splitSingle (quote : Char) (escapes : Bool) : List Char → Option (List Char × List Char)
  | [] => none
  | '\\' :: c :: rest =>
    if escapes then (splitSingle quote escapes rest).map fun (inner, rest) => ('\\' :: c :: inner, rest)
    else if c = quote then some (['\\'], rest)
    else (splitSingle quote escapes (c :: rest)).map fun (inner, rest) => ('\\' :: inner, rest)
  | c :: rest =>
    if c = quote then some ([], rest)
    else (splitSingle quote escapes rest).map fun (inner, rest) => (c :: inner, rest)

/-- What of a run of quotes belongs to the text, behind the three that may close it, and what follows. -/
def splitSurplus (quote : Char) : List Char → List Char × List Char
  | a :: b :: rest =>
    if a = quote then (if b = quote then ([a, b], rest) else ([a], b :: rest)) else ([], a :: b :: rest)
  | [a] => if a = quote then ([a], []) else ([], [a])
  | [] => ([], [])

/-- What stands before the three closing quotes, and what follows them. -/
def splitMultiple (quote : Char) (escapes : Bool) : List Char → Option (List Char × List Char)
  | [] => none
  | [_] => none
  | '\\' :: c :: rest =>
    if escapes then (splitMultiple quote escapes rest).map fun (inner, rest) => ('\\' :: c :: inner, rest)
    else (splitMultiple quote escapes (c :: rest)).map fun (inner, rest) => ('\\' :: inner, rest)
  | a :: b :: rest =>
    if a = quote ∧ b = quote ∧ rest.head? = some quote then some (splitSurplus quote rest.tail)
    else (splitMultiple quote escapes (b :: rest)).map fun (inner, rest) => (a :: inner, rest)

/-- The character of a one-letter escape. -/
def namedEscape? : Char → Option Char
  | 'b' => some '\x08'
  | 't' => some '\t'
  | 'n' => some '\n'
  | 'f' => some '\x0c'
  | 'r' => some '\r'
  | '"' => some '"'
  | '\\' => some '\\'
  | _ => none

/-- Whether only blanks stand before the end of a line. -/
def endsLine (cs : List Char) : Bool :=
  match cs.dropWhile isSpace with
  | '\n' :: _ => true
  | '\r' :: '\n' :: _ => true
  | _ => false

/-- The characters with escapes undone. `multiline` says whether lines may break, and `skipping` whether
blanks are taken away. -/
def unescape? (multiline : Bool) (skipping : Bool) : List Char → Option (List Char)
  | [] => some []
  | '\\' :: 'u' :: a :: b :: c :: d :: rest =>
    match (Text.hexNumber? [a, b, c, d]).bind Text.codePoint? with
    | some c => (unescape? multiline false rest).map (c :: ·)
    | none => none
  | '\\' :: 'U' :: a :: b :: c :: d :: e :: f :: g :: h :: rest =>
    match (Text.hexNumber? [a, b, c, d, e, f, g, h]).bind Text.codePoint? with
    | some c => (unescape? multiline false rest).map (c :: ·)
    | none => none
  | '\\' :: c :: rest =>
    match namedEscape? c with
    | some c => (unescape? multiline false rest).map (c :: ·)
    | none => if multiline && endsLine (c :: rest) then unescape? multiline true (c :: rest) else none
  | '\r' :: '\n' :: rest =>
    if !multiline then none
    else if skipping then unescape? multiline true rest
    else (unescape? multiline false rest).map ('\n' :: ·)
  | c :: rest =>
    if skipping && (isSpace c || c == '\n') then unescape? multiline true rest
    else if (multiline && c == '\n') || (isTextChar c && c != '\\') then
      (unescape? multiline false rest).map (c :: ·)
    else none

/-- The characters as they are, provided that they may stand in a literal text. -/
def literal? (multiline : Bool) : List Char → Option (List Char)
  | [] => some []
  | '\r' :: '\n' :: rest => if multiline then (literal? multiline rest).map ('\n' :: ·) else none
  | c :: rest =>
    if (multiline && c == '\n') || isTextChar c then (literal? multiline rest).map (c :: ·) else none

/-- The characters without a line break at the front. -/
def dropBreak : List Char → List Char
  | '\n' :: rest => rest
  | '\r' :: '\n' :: rest => rest
  | cs => cs

/-- The text of one line at the front, and what follows it. -/
def lineText? : List Char → Option (String × List Char)
  | '"' :: rest => do
    let (inner, rest) ← splitSingle '"' true rest
    return (String.ofList (← unescape? false false inner), rest)
  | '\'' :: rest => do
    let (inner, rest) ← splitSingle '\'' false rest
    return (String.ofList (← literal? false inner), rest)
  | _ => none

/-- The text at the front, of one line or of several, and what follows it. -/
def text? : List Char → Option (String × List Char)
  | '"' :: '"' :: '"' :: rest => do
    let (inner, rest) ← splitMultiple '"' true (dropBreak rest)
    return (String.ofList (← unescape? true false inner), rest)
  | '\'' :: '\'' :: '\'' :: rest => do
    let (inner, rest) ← splitMultiple '\'' false (dropBreak rest)
    return (String.ofList (← literal? true inner), rest)
  | cs => lineText? cs

/-- How a character is written in a basic text; `multiline` says whether lines may break. -/
def basicChar (multiline : Bool) (c : Char) : List Char :=
  if c = '\x08' then ['\\', 'b']
  else if c = '\t' then ['\\', 't']
  else if c = '\n' then (if multiline then ['\n'] else ['\\', 'n'])
  else if c = '\x0c' then ['\\', 'f']
  else if c = '\r' then ['\\', 'r']
  else if c = '"' then ['\\', '"']
  else if c = '\\' then ['\\', '\\']
  else if isTextChar c then [c]
  else '\\' :: 'u' :: Text.hexDigits Text.hexDigitUpper 4 c.toNat

/-- How long the longest run of a character is, given the length of the run at hand and of the longest one
before it. -/
def longestRun (wanted : Char) (current longest : Nat) : List Char → Nat
  | [] => max current longest
  | c :: rest =>
    if c = wanted then longestRun wanted (current + 1) longest rest
    else longestRun wanted 0 (max current longest) rest

/-- Whether a text is better written as a literal: it has something to escape, and a literal can hold it. -/
def prefersLiteral (cs : List Char) : Bool :=
  cs.any (fun c => c == '"' || c == '\\') && cs.all (fun c => c == '\n' || isTextChar c) &&
    longestRun '\'' 0 0 cs < 3 && cs.getLast? != some '\''

/-- The text of a value between quotes. -/
def quote (text : String) : String :=
  let cs := text.toList
  let multiline := cs.contains '\n'
  if prefersLiteral cs then
    if multiline then "'''\n" ++ text ++ "'''"
    else if cs.contains '\'' then "'''" ++ text ++ "'''"
    else "'" ++ text ++ "'"
  else
    let inner := String.ofList (cs.flatMap (basicChar multiline))
    if multiline then "\"\"\"\n" ++ inner ++ "\"\"\"" else "\"" ++ inner ++ "\""

end ClassSchema.Toml
