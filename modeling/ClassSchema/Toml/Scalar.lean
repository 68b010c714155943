import ClassSchema.Data
import ClassSchema.Date
import ClassSchema.Number.Literal
import ClassSchema.Number.Shortest
import ClassSchema.Number.Word

/-! # Scalars of TOML

Truth values, numbers and dates, as they stand between blanks and marks. A number becomes the literal of its
value, so that two spellings of one number are the same data, and a date becomes a text.
-/

namespace ClassSchema.Toml

/-- The digits without underscores, each of which must stand between two digits. -/
def dropUnderscores? (isDigit : Char → Bool) : List Char → Option (List Char)
  | [] => none
  | [c] => if isDigit c then some [c] else none
  | c :: '_' :: rest => if isDigit c then (dropUnderscores? isDigit rest).map (c :: ·) else none
  | c :: rest => if isDigit c then (dropUnderscores? isDigit rest).map (c :: ·) else none

/-- An integer of 64 bits. -/
def word? (value : Int) : Option Data :=
  if isWord value then some (.number (toString value)) else none

/-- The integer that digits of a base spell. -/
def integerInBase? (base : Nat) (cs : List Char) : Option Data := do
  let digits ← dropUnderscores? (fun c => ((Text.hexValue? c).filter (· < base)).isSome) cs
  word? (← digitsInBase? base digits)

/-- The decimal digits of an integer part, which does not start with a zero unless it is zero. -/
def integerDigits? (cs : List Char) : Option (List Char) :=
  match dropUnderscores? Char.isDigit cs with
  | some ['0'] => some ['0']
  | some ('0' :: _) => none
  | digits? => digits?

/-- The fraction of a number behind its point, with digits at both of its sides. -/
def fraction? (cs : List Char) : Option (List Char) :=
  (dropUnderscores? Char.isDigit cs).map ('.' :: ·)

/-- The exponent of a number behind its mark. -/
def exponent? : List Char → Option (List Char)
  | '-' :: cs => (dropUnderscores? Char.isDigit cs).map ('e' :: '-' :: ·)
  | '+' :: cs => (dropUnderscores? Char.isDigit cs).map ('e' :: ·)
  | cs => (dropUnderscores? Char.isDigit cs).map ('e' :: ·)

/-- Whether a character marks an exponent. -/
def isExponentMark (c : Char) : Bool :=
  c == 'e' || c == 'E'

/-- The literal of a number with a fraction or an exponent, without its sign. -/
def floatDigits? (cs : List Char) : Option (List Char) := do
  let mantissa := cs.takeWhile fun c => !isExponentMark c
  let behind := cs.dropWhile fun c => !isExponentMark c
  let whole ← integerDigits? (mantissa.takeWhile (· ≠ '.'))
  let fraction ←
    match mantissa.dropWhile (· ≠ '.') with
    | [] => some []
    | _ :: rest => fraction? rest
  let exponent ←
    match behind with
    | [] => some []
    | _ :: rest => exponent? rest
  return whole ++ fraction ++ exponent

/-- A double as data; what is too large for one is none. -/
def double? (value : Binary64) : Option Data :=
  match value with
  | .infinite false => none
  | value => some (.number value.positionalText)

/-- The number behind a sign. -/
def unsigned? (negative : Bool) (cs : List Char) : Option Data :=
  if cs = ['i', 'n', 'f'] then some (.number (if negative then "-inf" else "inf"))
  else if cs = ['n', 'a', 'n'] then some (.number "NaN")
  else if cs.any fun c => c == '.' || isExponentMark c then do
    let digits ← floatDigits? cs
    double? (← Binary64.ofLiteral? (String.ofList (if negative then '-' :: digits else digits)))
  else do
    let value : Int := ← digitsInBase? 10 (← integerDigits? cs)
    word? (if negative then -value else value)

/-- The number that characters spell. -/
def number? : List Char → Option Data
  | '0' :: 'x' :: rest => integerInBase? 16 rest
  | '0' :: 'o' :: rest => integerInBase? 8 rest
  | '0' :: 'b' :: rest => integerInBase? 2 rest
  | cs =>
    let (negative, rest) := splitSign cs
    unsigned? negative rest

/-- Whether two digits spell a number up to a bound. -/
def isPair (tens units : Char) (bound : Nat) : Bool :=
  tens.isDigit && units.isDigit && Date.number [tens, units] ≤ bound

/-- A date without a time. -/
def date? : List Char → Option (List Char)
  | [y1, y2, y3, y4, '-', m1, m2, '-', d1, d2] =>
    if [y1, y2, y3, y4, m1, m2, d1, d2].all Char.isDigit &&
        isCalendarDay (Date.number [y1, y2, y3, y4]) (Date.number [m1, m2]) (Date.number [d1, d2]) then
      some [y1, y2, y3, y4, '-', m1, m2, '-', d1, d2]
    else none
  | _ => none

/-- The fraction of a second, without zeros at its end. -/
def secondFraction? : List Char → Option (List Char)
  | [] => some []
  | '.' :: cs =>
    if cs.isEmpty || !cs.all Char.isDigit then none
    else
      match ((cs.take 9).reverse.dropWhile (· = '0')).reverse with
      | [] => some []
      | digits => some ('.' :: digits)
  | _ => none

/-- A time of the day. -/
def time? : List Char → Option (List Char)
  | h1 :: h2 :: ':' :: m1 :: m2 :: ':' :: s1 :: s2 :: rest =>
    if isPair h1 h2 23 && isPair m1 m2 59 && isPair s1 s2 60 then
      (secondFraction? rest).map ([h1, h2, ':', m1, m2, ':', s1, s2] ++ ·)
    else none
  | _ => none

/-- A time with an offset or without. -/
def offsetTime? (cs : List Char) : Option (List Char) :=
  let time := cs.takeWhile fun c => !"Zz+-".toList.contains c
  match cs.dropWhile fun c => !"Zz+-".toList.contains c with
  | [] => time? time
  | ['Z'] | ['z'] => (time? time).map (· ++ ['Z'])
  | [sign, h1, h2, ':', m1, m2] =>
    if (sign == '+' || sign == '-') && isPair h1 h2 23 && isPair m1 m2 59 then
      (time? time).map (· ++ [sign, h1, h2, ':', m1, m2])
    else none
  | _ => none

/-- The date or time that characters spell; a space may stand between date and time. -/
def moment? (cs : List Char) : Option Data :=
  let chars :=
    match cs.drop 10 with
    | [] => (date? cs) <|> (time? cs)
    | mark :: rest =>
      if "Tt ".toList.contains mark then
        match date? (cs.take 10), offsetTime? rest with
        | some date, some time => some (date ++ 'T' :: time)
        | _, _ => none
      else time? cs
  chars.map fun chars => .text (String.ofList chars)

/-- The scalar that characters spell. -/
def scalar? (cs : List Char) : Option Data :=
  if cs = "true".toList then some (.bool true)
  else if cs = "false".toList then some (.bool false)
  else number? cs <|> moment? cs

end ClassSchema.Toml
