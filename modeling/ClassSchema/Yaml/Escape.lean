import ClassSchema.Text.Hex

/-! # Escapes of double-quoted YAML

The escapes that may follow a backslash between double quotes: a letter for a fixed character, or `x`,
`u` or `U` for the code point that the next two, four or eight hexadecimal digits give.
-/

namespace ClassSchema.Yaml

/-- The character that a one-letter escape stands for. -/
def namedEscape? : Char → Option Char
  | '0' => some '\x00'
  | 'a' => some '\x07'
  | 'b' => some '\x08'
  | 't' => some '\t'
  | '\t' => some '\t'
  | 'n' => some '\n'
  | 'v' => some '\x0b'
  | 'f' => some '\x0c'
  | 'r' => some '\r'
  | 'e' => some '\x1b'
  | ' ' => some ' '
  | '"' => some '"'
  | '/' => some '/'
  | '\\' => some '\\'
  | 'N' => some '\u0085'
  | '_' => some '\u00a0'
  | 'L' => some '\u2028'
  | 'P' => some '\u2029'
  | _ => none

/-- How many hexadecimal digits follow the letter of a numeric escape. -/
def escapeWidth? : Char → Option Nat
  | 'x' => some 2
  | 'u' => some 4
  | 'U' => some 8
  | _ => none

/-- The character that the escape after a backslash stands for, how many characters the escape
has, and what follows it. -/
def readEscape? : List Char → Option (Char × Nat × List Char)
  | [] => none
  | letter :: rest =>
    match namedEscape? letter with
    | some c => some (c, 1, rest)
    | none =>
      match escapeWidth? letter with
      | none => none
      | some width =>
        if rest.length < width then none
        else ((Text.hexNumber? (rest.take width)).bind Text.codePoint?).map fun c =>
          (c, width + 1, rest.drop width)

end ClassSchema.Yaml
