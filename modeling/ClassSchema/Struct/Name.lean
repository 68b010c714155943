/-! # Names of structs and fields

Class names become names of structs in Pascal case, attribute names become names of fields in snake case.
Both keep ASCII letters and digits only, and put an underscore in front of a digit.
-/

namespace ClassSchema

/-- The characters with an underscore in front of a digit. -/
def guardDigit : List Char → List Char
  | [] => []
  | c :: rest => if c.isDigit then '_' :: c :: rest else c :: rest

/-- Letters and digits in Pascal case; the first one is a capital at the start of a word. -/
def pascalChars (startsWord : Bool) : List Char → List Char
  | [] => []
  | c :: rest =>
    if !c.isAlphanum then pascalChars true rest
    else (if startsWord then c.toUpper else c) :: pascalChars false rest

/-- A name in Pascal case. -/
def pascalCase (name : String) : String :=
  String.ofList (guardDigit (pascalChars true name.toList))

/-- Letters and digits in snake case; a capital that follows a small letter or a digit starts a word. -/
def snakeChars (followsLower : Bool) : List Char → List Char
  | [] => []
  | c :: rest =>
    if c.isUpper then (if followsLower then ['_', c.toLower] else [c.toLower]) ++ snakeChars false rest
    else if !c.isAlphanum then '_' :: snakeChars false rest
    else c :: snakeChars (c.isLower || c.isDigit) rest

/-- A name in snake case. -/
def snakeCase (name : String) : String :=
  String.ofList (guardDigit (snakeChars false name.toList))

end ClassSchema
