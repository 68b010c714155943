/-! # Hexadecimal digits

Writing numbers in hexadecimal with a least width, and reading digits back one at a time.
-/

namespace ClassSchema.Text

/-- The value of a hexadecimal digit of either case. -/
def hexValue? (c : Char) : Option Nat :=
  if '0' ≤ c ∧ c ≤ '9' then some (c.toNat - '0'.toNat)
  else if 'a' ≤ c ∧ c ≤ 'f' then some (c.toNat - 'a'.toNat + 10)
  else if 'A' ≤ c ∧ c ≤ 'F' then some (c.toNat - 'A'.toNat + 10)
  else none

/-- The value of a run of hexadecimal digits, most significant first. -/
def hexNumber? (cs : List Char) : Option Nat :=
  cs.foldlM (fun value c => (hexValue? c).map (value * 16 + ·)) 0

/-- The lower-case hexadecimal digit of a value below sixteen. -/
def hexDigit (n : Nat) : Char :=
  if n < 10 then Char.ofNat ('0'.toNat + n) else Char.ofNat ('a'.toNat + (n - 10))

/-- The upper-case hexadecimal digit of a value below sixteen. -/
def hexDigitUpper (n : Nat) : Char :=
  if n < 10 then Char.ofNat ('0'.toNat + n) else Char.ofNat ('A'.toNat + (n - 10))

/-- The last `width` hexadecimal digits of `n`, written with `digit`. -/
def hexDigits (digit : Nat → Char) (width n : Nat) : List Char :=
  (List.range width).reverse.map fun place => digit (n / Nat.pow 16 place % 16)

/-- The hexadecimal digits of `n`, without leading zeros. -/
def hexNumeral (n : Nat) : List Char :=
  Nat.toDigits 16 n

/-- The character of a code point that is neither a surrogate nor out of range. -/
def codePoint? (code : Nat) : Option Char :=
  if (0xd800 ≤ code ∧ code ≤ 0xdfff) ∨ 0x10ffff < code then none else some (Char.ofNat code)

end ClassSchema.Text
