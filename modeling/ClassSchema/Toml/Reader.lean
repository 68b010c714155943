import ClassSchema.Toml.Quoted
import ClassSchema.Toml.Scalar
import ClassSchema.Toml.Tree

/-! # Reading TOML

A document is a sequence of statements, one a line: keys with values, and headers that name the table of
the keys behind them.
-/

namespace ClassSchema.Toml

/-- What follows blanks, line breaks and comments; `commented` says whether a comment is at hand. -/
def skipLayout (commented : Bool) : List Char → Option (List Char)
  | [] => some []
  | '\n' :: rest => skipLayout false rest
  | '\r' :: '\n' :: rest => skipLayout false rest
  | c :: rest =>
    if commented then (if isTextChar c then skipLayout true rest else none)
    else if c = '#' then skipLayout true rest
    else if isSpace c then skipLayout false rest
    else some (c :: rest)

/-- What follows blanks in a line. -/
def skipSpaces (cs : List Char) : List Char :=
  cs.dropWhile isSpace

/-- Whether a character may stand in a key without quotes. -/
def isBareChar (c : Char) : Bool :=
  c.isAlphanum || c == '_' || c == '-'

/-- The simple key at the front, and what follows it. -/
def simpleKey? (cs : List Char) : Option (String × List Char) :=
  match cs.takeWhile isBareChar with
  | [] => lineText? cs
  | bare => some (String.ofList bare, cs.dropWhile isBareChar)

/-- The key at the front as its parts, of which there is one more than points, and what follows it. -/
def key? : Nat → List Char → Option (List String × List Char)
  | 0, _ => none
  | fuel + 1, cs => do
    let (name, rest) ← simpleKey? (skipSpaces cs)
    match skipSpaces rest with
    | '.' :: rest =>
      let (names, rest) ← key? fuel rest
      return (name :: names, rest)
    | rest => return ([name], rest)

/-- Whether a character may stand in a scalar without quotes. -/
def isScalarChar (c : Char) : Bool :=
  c.isAlphanum || c == '+' || c == '-' || c == '_' || c == '.' || c == ':'

/-- The scalar at the front, and what follows it; a time may follow a date behind a space. -/
def scalarAhead? (cs : List Char) : Option (Data × List Char) :=
  let first := cs.takeWhile isScalarChar
  let rest := cs.dropWhile isScalarChar
  match rest with
  | ' ' :: behind =>
    if (date? first).isSome && (behind.head?.map Char.isDigit).getD false then
      (scalar? (first ++ ' ' :: behind.takeWhile isScalarChar)).map fun data =>
        (data, behind.dropWhile isScalarChar)
    else (scalar? first).map fun data => (data, rest)
  | _ => (scalar? first).map fun data => (data, rest)

/-- Give a value to the key that the parts make. -/
def assignKey (data : Data) (names : List String) (entries : Entries) : Option Entries :=
  match names.getLast? with
  | some key => entries.assignDotted data key names.dropLast
  | none => none

mutual

/-- The value at the front, and what follows it. -/
def value? : Nat → List Char → Option (Data × List Char)
  | 0, _ => none
  | fuel + 1, cs =>
    match cs with
    | '[' :: rest => (items? fuel rest).map fun (items, rest) => (.list items, rest)
    | '\x7b' :: rest =>
      match skipSpaces rest with
      | '\x7d' :: rest => some (.map [], rest)
      | rest => (members? fuel [] rest).map fun (entries, rest) => (.map (Item.entriesData entries), rest)
    | '"' :: _ | '\'' :: _ => (text? cs).map fun (text, rest) => (.text text, rest)
    | cs => scalarAhead? cs

/-- The items of an array up to its closing bracket, and what follows it. -/
def items? : Nat → List Char → Option (List Data × List Char)
  | 0, _ => none
  | fuel + 1, cs => do
    match ← skipLayout false cs with
    | ']' :: rest => return ([], rest)
    | cs =>
      let (item, rest) ← value? fuel cs
      match ← skipLayout false rest with
      | ']' :: rest => return ([item], rest)
      | ',' :: rest =>
        let (items, rest) ← items? fuel rest
        return (item :: items, rest)
      | _ => none

/-- The members of an inline table behind those already read, up to its closing brace, and what follows
it. -/
def members? : Nat → Entries → List Char → Option (Entries × List Char)
  | 0, _, _ => none
  | fuel + 1, entries, cs => do
    let (names, rest) ← key? fuel cs
    match rest with
    | '=' :: rest =>
      let (data, rest) ← value? fuel (skipSpaces rest)
      let entries ← assignKey data names entries
      match skipSpaces rest with
      | '\x7d' :: rest => return (entries, rest)
      | ',' :: rest => members? fuel entries rest
      | _ => none
    | _ => none

end

/-- What is read of a document: its tables, and the path of the table that the last header named. -/
structure Progress where
  root : Entries := []
  path : List String := []

/-- Name a table by a header, one of an array or not. -/
def Progress.header (progress : Progress) (names : List String) (isElement : Bool) : Option Progress := do
  let name ← names.getLast?
  let edit := if isElement then Entries.openElement name else Entries.openTable name
  return ⟨← progress.root.within edit names.dropLast, names⟩

/-- Read the statement at the front, and give what follows it. -/
def statement? (fuel : Nat) (progress : Progress) (cs : List Char) : Option (Progress × List Char) := do
  match cs with
  | '[' :: '[' :: rest =>
    let (names, rest) ← key? fuel rest
    match rest with
    | ']' :: ']' :: rest => return (← progress.header names true, rest)
    | _ => none
  | '[' :: rest =>
    let (names, rest) ← key? fuel rest
    match rest with
    | ']' :: rest => return (← progress.header names false, rest)
    | _ => none
  | cs =>
    let (names, rest) ← key? fuel cs
    match rest with
    | '=' :: rest =>
      let (data, rest) ← value? fuel (skipSpaces rest)
      return ({ progress with root := ← progress.root.within (assignKey data names) progress.path }, rest)
    | _ => none

/-- Whether a statement may end in front of characters. -/
def endsStatement (cs : List Char) : Bool :=
  match skipSpaces cs with
  | [] | '#' :: _ | '\n' :: _ | '\r' :: '\n' :: _ => true
  | _ => false

/-- Read statements one after the other. -/
def statements? : Nat → Progress → List Char → Option Entries
  | 0, _, _ => none
  | fuel + 1, progress, cs => do
    match ← skipLayout false cs with
    | [] => return progress.root
    | cs =>
      let (progress, rest) ← statement? fuel progress cs
      if endsStatement rest then statements? fuel progress rest else none

/-- The entries of the table that a text spells. Every step uses up a character, so their number bounds the
steps. -/
def read? (text : String) : Option (Table Data) :=
  let cs :=
    match text.toList with
    | '\ufeff' :: rest => rest
    | cs => cs
  (statements? (cs.length + 2) {} cs).map Item.entriesData

end ClassSchema.Toml
