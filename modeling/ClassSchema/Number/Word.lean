/-! # Words

The bounds of the integers that fit into 64 bits, with or without a sign.
-/

namespace ClassSchema

/-- The least signed integer of 64 bits. -/
def wordMin : Int := -9223372036854775808

/-- The greatest signed integer of 64 bits. -/
def wordMax : Int := 9223372036854775807

/-- The greatest unsigned integer of 64 bits. -/
def unsignedWordMax : Int := 18446744073709551615

/-- Whether a signed integer has 64 bits. -/
def isWord (value : Int) : Bool :=
  wordMin ≤ value && value ≤ wordMax

/-- Whether an integer has 64 bits, with or without a sign. -/
def isAnyWord (value : Int) : Bool :=
  wordMin ≤ value && value ≤ unsignedWordMax

end ClassSchema
