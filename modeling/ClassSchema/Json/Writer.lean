import ClassSchema.Data
import ClassSchema.Json.Quoted

/-! # Writing JSON

Compact text has no blanks; indented text gives each member and element a line of its own, two
spaces deeper than the collection. Number literals are written as they are, and entries in order.
-/

namespace ClassSchema.Json

mutual

/-- Compact text of a value. -/
def compactChars : Data → List Char
  | .null => ['n', 'u', 'l', 'l']
  | .bool true => ['t', 'r', 'u', 'e']
  | .bool false => ['f', 'a', 'l', 's', 'e']
  | .number literal => literal.toList
  | .text value => quote value
  | .list items => '[' :: compactItems items ++ [']']
  | .map entries => '\x7b' :: compactEntries entries ++ ['\x7d']

/-- Compact elements, separated by commas. -/
def compactItems : List Data → List Char
  | [] => []
  | [item] => compactChars item
  | item :: rest => compactChars item ++ ',' :: compactItems rest

/-- Compact members, separated by commas. -/
def compactEntries : List (String × Data) → List Char
  | [] => []
  | [(key, value)] => quote key ++ ':' :: compactChars value
  | (key, value) :: rest => quote key ++ ':' :: compactChars value ++ ',' :: compactEntries rest

end

/-- A line break and the indentation of a level. -/
def newline (level : Nat) : List Char :=
  '\n' :: List.replicate (2 * level) ' '

mutual

/-- Indented text of a value that stands at a level. -/
def indentedChars (level : Nat) : Data → List Char
  | .list [] => ['[', ']']
  | .list (item :: rest) => '[' :: indentedItems (level + 1) (item :: rest) ++ newline level ++ [']']
  | .map [] => ['\x7b', '\x7d']
  | .map (entry :: rest) =>
    '\x7b' :: indentedEntries (level + 1) (entry :: rest) ++ newline level ++ ['\x7d']
  | scalar => compactChars scalar

/-- Elements on lines of their own, separated by commas. -/
def indentedItems (level : Nat) : List Data → List Char
  | [] => []
  | [item] => newline level ++ indentedChars level item
  | item :: rest => newline level ++ indentedChars level item ++ ',' :: indentedItems level rest

/-- Members on lines of their own, separated by commas. -/
def indentedEntries (level : Nat) : List (String × Data) → List Char
  | [] => []
  | [(key, value)] => newline level ++ quote key ++ ':' :: ' ' :: indentedChars level value
  | (key, value) :: rest =>
    newline level ++ quote key ++ ':' :: ' ' :: indentedChars level value ++
      ',' :: indentedEntries level rest

end

/-- Compact JSON text. -/
def compact (value : Data) : String :=
  String.ofList (compactChars value)

/-- Indented JSON text. -/
def indented (value : Data) : String :=
  String.ofList (indentedChars 0 value)

end ClassSchema.Json
