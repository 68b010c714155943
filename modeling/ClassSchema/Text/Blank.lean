/-! # Blank characters

White space in the sense of the Unicode property. Names, identifiers and numbers are trimmed by it,
and a name that consists of it alone counts as missing.
-/

namespace ClassSchema.Text

/-- Whether `c` has the Unicode property `White_Space`. -/
def isBlank (c : Char) : Bool :=
  (0x9 ≤ c.toNat && c.toNat ≤ 0xd) || c.toNat == 0x20 || c.toNat == 0x85 || c.toNat == 0xa0 ||
  c.toNat == 0x1680 || (0x2000 ≤ c.toNat && c.toNat ≤ 0x200a) || c.toNat == 0x2028 ||
  c.toNat == 0x2029 || c.toNat == 0x202f || c.toNat == 0x205f || c.toNat == 0x3000

/-- Drop the elements at both ends that satisfy `p`. -/
def stripEnds (p : Char → Bool) (cs : List Char) : List Char :=
  ((cs.dropWhile p).reverse.dropWhile p).reverse

/-- The text without the blank characters at its two ends. -/
def trim (s : String) : String :=
  String.ofList (stripEnds isBlank s.toList)

/-- Whether the text has no character but blank ones. -/
def isBlankText (s : String) : Bool :=
  s.toList.all isBlank

end ClassSchema.Text
