import ClassSchema.Text.Hex

/-! # Quoted texts of block text

A text stands between double quotes, on one line. Quotes, backslashes, controls, characters that YAML
reads as a break and those that it refuses are written as escapes.
-/

namespace ClassSchema.Block

/-- How one character is written between the quotes. -/
def quoteChar (c : Char) : List Char :=
  if c = '"' then ['\\', '"']
  else if c = '\\' then ['\\', '\\']
  else if c = '\x00' then ['\\', '0']
  else if c = '\x07' then ['\\', 'a']
  else if c = '\x08' then ['\\', 'b']
  else if c = '\t' then ['\\', 't']
  else if c = '\n' then ['\\', 'n']
  else if c = '\x0b' then ['\\', 'v']
  else if c = '\x0c' then ['\\', 'f']
  else if c = '\r' then ['\\', 'r']
  else if c = '\x1b' then ['\\', 'e']
  else if c = '\u0085' then ['\\', 'N']
  else if c = '\u2028' then ['\\', 'L']
  else if c = '\u2029' then ['\\', 'P']
  else if c < ' ' ∨ ('\x7f' ≤ c ∧ c ≤ '\u009f') then
    '\\' :: 'x' :: Text.hexDigits Text.hexDigitUpper 2 c.toNat
  else if c = '\ufeff' ∨ c = '\ufffe' ∨ c = '\uffff' then
    '\\' :: 'u' :: Text.hexDigits Text.hexDigitUpper 4 c.toNat
  else [c]

/-- A text between double quotes. -/
def quote (text : String) : List Char :=
  '"' :: text.toList.flatMap quoteChar ++ ['"']

/-- Whether a name may be written as a key without quotes: it is an identifier, perhaps with hyphens. -/
def isBareKey (name : String) : Bool :=
  match name.toList with
  | [] => false
  | first :: rest =>
    (first.isAlpha || first == '_') && rest.all fun c => c.isAlphanum || c == '_' || c == '-'

/-- A name as a key. -/
def key (name : String) : List Char :=
  if isBareKey name then name.toList else quote name

end ClassSchema.Block
