import ClassSchema.Data
import ClassSchema.Json.Number
import ClassSchema.Json.Quoted

/-! # Reading JSON

One value with blanks around it. When a key is repeated, the last value stands in the place of the
first. Collections may be nested 127 deep. An object whose first key is reserved for numbers is no map
but the number that its only member spells as a text.
-/

namespace ClassSchema.Json

/-- The blanks of JSON. -/
def isSpace (c : Char) : Bool :=
  c == ' ' || c == '\n' || c == '\t' || c == '\r'

/-- Drop the blanks at the front. -/
def skipSpace (cs : List Char) : List Char :=
  cs.dropWhile isSpace

/-- How deep collections may be nested. -/
def maxDepth : Nat := 127

/-- The key under which a number may be given as a text. -/
def numberKey : String := "$serde_json::private::Number"

/-- The data of an object's members: a map, unless the first key is the one for numbers. -/
def objectData? : List (String × Data) → Option Data
  | [] => some (.map [])
  | (key, value) :: rest =>
    if key = numberKey then
      match value, rest with
      | .text literal, [] => (literal? literal).map .number
      | _, _ => none
    else some (.map (Table.ofPairs ((key, value) :: rest)))

mutual

/-- A value, and what follows it; `fuel` bounds the steps and `depth` the nesting. -/
def readValue? (fuel depth : Nat) (cs : List Char) : Option (Data × List Char) :=
  match fuel with
  | 0 => none
  | fuel + 1 =>
    match skipSpace cs with
    | 'n' :: 'u' :: 'l' :: 'l' :: rest => some (.null, rest)
    | 't' :: 'r' :: 'u' :: 'e' :: rest => some (.bool true, rest)
    | 'f' :: 'a' :: 'l' :: 's' :: 'e' :: rest => some (.bool false, rest)
    | '"' :: rest => (readQuoted? rest).map fun (value, rest) => (.text (String.ofList value), rest)
    | '[' :: rest =>
      match depth with
      | 0 => none
      | depth + 1 =>
        match skipSpace rest with
        | ']' :: rest => some (.list [], rest)
        | rest => (readItems? fuel depth rest).map fun (items, rest) => (.list items, rest)
    | '\x7b' :: rest =>
      match depth with
      | 0 => none
      | depth + 1 =>
        match skipSpace rest with
        | '\x7d' :: rest => some (.map [], rest)
        | rest =>
          (readMembers? fuel depth rest).bind fun (members, rest) =>
            (objectData? members).map fun data => (data, rest)
    | rest => (number? rest).map fun (literal, rest) => (.number (String.ofList literal), rest)

/-- The elements up to the closing bracket, and what follows it. -/
def readItems? (fuel depth : Nat) (cs : List Char) : Option (List Data × List Char) :=
  match fuel with
  | 0 => none
  | fuel + 1 => do
    let (item, rest) ← readValue? fuel depth cs
    match skipSpace rest with
    | ']' :: rest => some ([item], rest)
    | ',' :: rest =>
      let (items, rest) ← readItems? fuel depth rest
      some (item :: items, rest)
    | _ => none

/-- The members up to the closing brace, and what follows it. -/
def readMembers? (fuel depth : Nat) (cs : List Char) : Option (List (String × Data) × List Char) :=
  match fuel with
  | 0 => none
  | fuel + 1 =>
    match skipSpace cs with
    | '"' :: rest => do
      let (key, rest) ← readQuoted? rest
      match skipSpace rest with
      | ':' :: rest =>
        let (value, rest) ← readValue? fuel depth rest
        match skipSpace rest with
        | '\x7d' :: rest => some ([(String.ofList key, value)], rest)
        | ',' :: rest =>
          let (members, rest) ← readMembers? fuel depth rest
          some ((String.ofList key, value) :: members, rest)
        | _ => none
      | _ => none
    | _ => none

end

/-- The value that a text spells. -/
def read? (text : String) : Option Data :=
  let cs := text.toList
  match readValue? (2 * cs.length + 2) maxDepth cs with
  | some (value, rest) => if (skipSpace rest).isEmpty then some value else none
  | none => none

end ClassSchema.Json
