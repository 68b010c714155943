import ClassSchema.Text.Hex

/-! # Quoted texts of JSON

Between double quotes, a quote, a backslash and the controls below the space are escaped and every
other character stands for itself. Reading accepts all escapes of the format, including pairs of
surrogates, and refuses raw controls and lone surrogates.
-/

namespace ClassSchema.Json

/-- How one character is written between the quotes. -/
def quoteChar (c : Char) : List Char :=
  if c = '"' then ['\\', '"']
  else if c = '\\' then ['\\', '\\']
  else if c = '\x08' then ['\\', 'b']
  else if c = '\x0c' then ['\\', 'f']
  else if c = '\n' then ['\\', 'n']
  else if c = '\r' then ['\\', 'r']
  else if c = '\t' then ['\\', 't']
  else if c.toNat < 0x20 then '\\' :: 'u' :: Text.hexDigits Text.hexDigit 4 c.toNat
  else [c]

/-- The text between double quotes. -/
def quote (s : String) : List Char :=
  '"' :: s.toList.flatMap quoteChar ++ ['"']

/-- The character that a one-letter escape stands for. -/
def shortEscape? : Char → Option Char
  | '"' => some '"'
  | '\\' => some '\\'
  | '/' => some '/'
  | 'b' => some '\x08'
  | 'f' => some '\x0c'
  | 'n' => some '\n'
  | 'r' => some '\r'
  | 't' => some '\t'
  | _ => none

/-- The character of a pair of surrogates. -/
def surrogatePair? (high low : Nat) : Option Char :=
  if 0xdc00 ≤ low ∧ low ≤ 0xdfff then
    some (Char.ofNat (0x10000 + (high - 0xd800) * 0x400 + (low - 0xdc00)))
  else none

/-- Read the characters up to the closing quote, and what follows it. -/
def readQuoted? : List Char → Option (List Char × List Char)
  | [] => none
  | '"' :: rest => some ([], rest)
  | '\\' :: 'u' :: a :: b :: c :: d :: rest =>
    match Text.hexNumber? [a, b, c, d] with
    | none => none
    | some code =>
      if 0xd800 ≤ code ∧ code ≤ 0xdbff then
        match rest with
        | '\\' :: 'u' :: e :: f :: g :: h :: rest =>
          match (Text.hexNumber? [e, f, g, h]).bind (surrogatePair? code) with
          | none => none
          | some pair => (readQuoted? rest).map fun (cs, rest) => (pair :: cs, rest)
        | _ => none
      else if 0xdc00 ≤ code ∧ code ≤ 0xdfff then none
      else (readQuoted? rest).map fun (cs, rest) => (Char.ofNat code :: cs, rest)
  | '\\' :: escape :: rest =>
    match shortEscape? escape with
    | none => none
    | some c => (readQuoted? rest).map fun (cs, rest) => (c :: cs, rest)
  | c :: rest =>
    if c.toNat < 0x20 ∨ c = '\\' then none
    else (readQuoted? rest).map fun (cs, rest) => (c :: cs, rest)

end ClassSchema.Json
