import ClassSchema.Text.Hidden
import ClassSchema.Text.Hex

/-! # Texts in messages

A message shows an offending text between double quotes, with quotes, backslashes, line breaks, tabs
and every hidden character escaped, so that the message names the text exactly and stays on one line.
-/

namespace ClassSchema.Text

/-- How one character is shown inside the quotes. -/
def inspectChar (c : Char) : List Char :=
  if c = '\x00' then ['\\', '0']
  else if c = '\t' then ['\\', 't']
  else if c = '\r' then ['\\', 'r']
  else if c = '\n' then ['\\', 'n']
  else if c = '\\' then ['\\', '\\']
  else if c = '"' then ['\\', '"']
  else if isHidden c then ['\\', 'u', '\x7b'] ++ hexNumeral c.toNat ++ ['\x7d']
  else [c]

/-- The text between double quotes, as messages show it. -/
def inspect (s : String) : String :=
  String.ofList ('"' :: s.toList.flatMap inspectChar ++ ['"'])

end ClassSchema.Text
