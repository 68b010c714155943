import ClassSchema.Block.Quoted

/-! # Layout of block text

A layout is what a block text shows: scalars that are written as they are, scalars between quotes,
mappings and sequences. Each entry of a mapping has a line of its own with what belongs to it below, two
columns deeper; an empty mapping or sequence stands on the line of its key.
-/

namespace ClassSchema.Block

/-- The parts of a block text. -/
inductive Layout where
  | plain (text : String)
  | quoted (text : String)
  | sequence (items : List Layout)
  | mapping (entries : List (String × Layout))
deriving Inhabited, Repr

/-- Spaces up to a column. -/
def indentation (column : Nat) : List Char :=
  List.replicate column ' '

mutual

/-- What follows the colon of a key or the hyphen of an item at a column. -/
def Layout.afterMark (column : Nat) : Layout → List Char
  | .plain text => ' ' :: text.toList ++ ['\n']
  | .quoted text => ' ' :: quote text ++ ['\n']
  | .sequence [] => [' ', '[', ']', '\n']
  | .sequence (item :: rest) => '\n' :: itemLines (column + 2) (item :: rest)
  | .mapping [] => [' ', '\x7b', '\x7d', '\n']
  | .mapping (entry :: rest) => '\n' :: entryLines (column + 2) (entry :: rest)

/-- The lines of items at a column. -/
def itemLines (column : Nat) : List Layout → List Char
  | [] => []
  | item :: rest => indentation column ++ '-' :: item.afterMark column ++ itemLines column rest

/-- The lines of entries at a column. -/
def entryLines (column : Nat) : List (String × Layout) → List Char
  | [] => []
  | (name, value) :: rest =>
    indentation column ++ key name ++ ':' :: value.afterMark column ++ entryLines column rest

end

/-- The text of a mapping that is a whole document. -/
def documentText (entries : List (String × Layout)) : String :=
  String.ofList (if entries.isEmpty then ['\x7b', '\x7d', '\n'] else entryLines 0 entries)

end ClassSchema.Block
