import ClassSchema.Text.Hex

/-! # SHA-256

The secure hash of FIPS 180-4 with 256 bits, written in hexadecimal. The message schedule is a window of
sixteen words: the first is used in a round, and the next one is appended.
-/

namespace ClassSchema.Text.Sha256

/-- The first 32 bits of the fractions of the cube roots of the first 64 primes. -/
def roundConstants : List UInt32 :=
  [0x428a2f98, 0x71374491, 0xb5c0fbcf, 0xe9b5dba5, 0x3956c25b, 0x59f111f1, 0x923f82a4, 0xab1c5ed5,
   0xd807aa98, 0x12835b01, 0x243185be, 0x550c7dc3, 0x72be5d74, 0x80deb1fe, 0x9bdc06a7, 0xc19bf174,
   0xe49b69c1, 0xefbe4786, 0x0fc19dc6, 0x240ca1cc, 0x2de92c6f, 0x4a7484aa, 0x5cb0a9dc, 0x76f988da,
   0x983e5152, 0xa831c66d, 0xb00327c8, 0xbf597fc7, 0xc6e00bf3, 0xd5a79147, 0x06ca6351, 0x14292967,
   0x27b70a85, 0x2e1b2138, 0x4d2c6dfc, 0x53380d13, 0x650a7354, 0x766a0abb, 0x81c2c92e, 0x92722c85,
   0xa2bfe8a1, 0xa81a664b, 0xc24b8b70, 0xc76c51a3, 0xd192e819, 0xd6990624, 0xf40e3585, 0x106aa070,
   0x19a4c116, 0x1e376c08, 0x2748774c, 0x34b0bcb5, 0x391c0cb3, 0x4ed8aa4a, 0x5b9cca4f, 0x682e6ff3,
   0x748f82ee, 0x78a5636f, 0x84c87814, 0x8cc70208, 0x90befffa, 0xa4506ceb, 0xbef9a3f7, 0xc67178f2]

/-- The eight words that a hash consists of. -/
structure Work where
  a : UInt32
  b : UInt32
  c : UInt32
  d : UInt32
  e : UInt32
  f : UInt32
  g : UInt32
  h : UInt32

/-- The first 32 bits of the fractions of the square roots of the first eight primes. -/
def Work.initial : Work :=
  ⟨0x6a09e667, 0xbb67ae85, 0x3c6ef372, 0xa54ff53a, 0x510e527f, 0x9b05688c, 0x1f83d9ab, 0x5be0cd19⟩

/-- The sums of corresponding words. -/
def Work.add (x y : Work) : Work :=
  ⟨x.a + y.a, x.b + y.b, x.c + y.c, x.d + y.d, x.e + y.e, x.f + y.f, x.g + y.g, x.h + y.h⟩

/-- Rotate a word to the right. -/
def rotate (x count : UInt32) : UInt32 :=
  (x >>> count) ||| (x <<< (32 - count))

/-- One round with a word of the schedule and a round constant. -/
def Work.round (work : Work) (word constant : UInt32) : Work :=
  let sum1 := rotate work.e 6 ^^^ rotate work.e 11 ^^^ rotate work.e 25
  let choice := (work.e &&& work.f) ^^^ (~~~work.e &&& work.g)
  let t1 := work.h + sum1 + choice + constant + word
  let sum0 := rotate work.a 2 ^^^ rotate work.a 13 ^^^ rotate work.a 22
  let majority := (work.a &&& work.b) ^^^ (work.a &&& work.c) ^^^ (work.b &&& work.c)
  ⟨t1 + (sum0 + majority), work.a, work.b, work.c, work.d + t1, work.e, work.f, work.g⟩

/-- The word of the schedule that follows a window of sixteen. -/
def nextWord (window : List UInt32) : UInt32 :=
  let word (index : Nat) : UInt32 := window.getD index 0
  let early := rotate (word 1) 7 ^^^ rotate (word 1) 18 ^^^ (word 1 >>> 3)
  let late := rotate (word 14) 17 ^^^ rotate (word 14) 19 ^^^ (word 14 >>> 10)
  word 0 + early + word 9 + late

/-- Hash a block of sixteen words into a hash. -/
def compress (hash : Work) (block : List UInt32) : Work :=
  let (work, _) := roundConstants.foldl (fun (work, window) constant =>
    (work.round (window.headD 0) constant, window.tail ++ [nextWord window])) (hash, block)
  hash.add work

/-- The big-endian words that octets make. -/
def words : List UInt8 → List UInt32
  | a :: b :: c :: d :: rest =>
    ((a.toUInt32 <<< 24) ||| (b.toUInt32 <<< 16) ||| (c.toUInt32 <<< 8) ||| d.toUInt32) :: words rest
  | _ => []

/-- The octets of a message with a one bit, zeros and the length in bits behind it, up to full blocks. -/
def padded (message : List UInt8) : List UInt8 :=
  let zeros := (119 - message.length % 64) % 64
  let length := 8 * message.length
  let octets := [56, 48, 40, 32, 24, 16, 8, 0].map fun shift => UInt8.ofNat (length >>> shift)
  message ++ 0x80 :: List.replicate zeros 0 ++ octets

/-- Hash words in blocks of sixteen. -/
def hashBlocks (fuel : Nat) (hash : Work) (words : List UInt32) : Work :=
  match fuel, words with
  | fuel + 1, _ :: _ => hashBlocks fuel (compress hash (words.take 16)) (words.drop 16)
  | _, _ => hash

/-- The hash of octets, in hexadecimal. -/
def hex (message : List UInt8) : String :=
  let words := words (padded message)
  let hash := hashBlocks words.length .initial words
  String.ofList ([hash.a, hash.b, hash.c, hash.d, hash.e, hash.f, hash.g, hash.h].flatMap fun word =>
    hexDigits hexDigit 8 word.toNat)

end ClassSchema.Text.Sha256
