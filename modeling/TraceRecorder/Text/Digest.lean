/-
# Digests

A chunk is identified by the SHA-256 digest of its bytes.  The message is padded to whole blocks
of 64 bytes, and each block stirs eight 32-bit registers in 64 rounds, one for each word of its
schedule.  A schedule begins with the words of the block, and each further word is made of four
earlier ones.

The digest is 32 bytes long, `length_sha256`.
-/
import TraceRecorder.Bytes

namespace TraceRecorder

namespace Digest

/-! ## 1. Registers and rounds -/

/-- The eight registers. -/
structure Registers where
  a : UInt32
  b : UInt32
  c : UInt32
  d : UInt32
  e : UInt32
  f : UInt32
  g : UInt32
  h : UInt32

def Registers.initial : Registers :=
  ⟨0x6a09e667, 0xbb67ae85, 0x3c6ef372, 0xa54ff53a, 0x510e527f, 0x9b05688c, 0x1f83d9ab, 0x5be0cd19⟩

/-- The constant of each round. -/
def roundConstants : List UInt32 :=
  [0x428a2f98, 0x71374491, 0xb5c0fbcf, 0xe9b5dba5, 0x3956c25b, 0x59f111f1, 0x923f82a4, 0xab1c5ed5,
   0xd807aa98, 0x12835b01, 0x243185be, 0x550c7dc3, 0x72be5d74, 0x80deb1fe, 0x9bdc06a7, 0xc19bf174,
   0xe49b69c1, 0xefbe4786, 0x0fc19dc6, 0x240ca1cc, 0x2de92c6f, 0x4a7484aa, 0x5cb0a9dc, 0x76f988da,
   0x983e5152, 0xa831c66d, 0xb00327c8, 0xbf597fc7, 0xc6e00bf3, 0xd5a79147, 0x06ca6351, 0x14292967,
   0x27b70a85, 0x2e1b2138, 0x4d2c6dfc, 0x53380d13, 0x650a7354, 0x766a0abb, 0x81c2c92e, 0x92722c85,
   0xa2bfe8a1, 0xa81a664b, 0xc24b8b70, 0xc76c51a3, 0xd192e819, 0xd6990624, 0xf40e3585, 0x106aa070,
   0x19a4c116, 0x1e376c08, 0x2748774c, 0x34b0bcb5, 0x391c0cb3, 0x4ed8aa4a, 0x5b9cca4f, 0x682e6ff3,
   0x748f82ee, 0x78a5636f, 0x84c87814, 0x8cc70208, 0x90befffa, 0xa4506ceb, 0xbef9a3f7, 0xc67178f2]

def rotate (w : UInt32) (bits : UInt32) : UInt32 := (w >>> bits) ||| (w <<< (32 - bits))

/-- The registers after one round. -/
def Registers.round (r : Registers) (constant word : UInt32) : Registers :=
  let choice := (r.e &&& r.f) ^^^ (~~~r.e &&& r.g)
  let majority := (r.a &&& r.b) ^^^ (r.a &&& r.c) ^^^ (r.b &&& r.c)
  let stirred := r.h + (rotate r.e 6 ^^^ rotate r.e 11 ^^^ rotate r.e 25) + choice + constant + word
  let folded := (rotate r.a 2 ^^^ rotate r.a 13 ^^^ rotate r.a 22) + majority
  ⟨stirred + folded, r.a, r.b, r.c, r.d + stirred, r.e, r.f, r.g⟩

/-- The registers added to those before a block. -/
def Registers.add (r s : Registers) : Registers :=
  ⟨r.a + s.a, r.b + s.b, r.c + s.c, r.d + s.d, r.e + s.e, r.f + s.f, r.g + s.g, r.h + s.h⟩

/-! ## 2. Blocks -/

/-- The word with four bytes, the most significant one first. -/
def word (a b c d : UInt8) : UInt32 :=
  (a.toUInt32 <<< 24) ||| (b.toUInt32 <<< 16) ||| (c.toUInt32 <<< 8) ||| d.toUInt32

def words : Bytes → List UInt32
  | a :: b :: c :: d :: rest => word a b c d :: words rest
  | _ => []

/-- The word of a schedule that follows on those so far. -/
def nextWord (schedule : Array UInt32) : UInt32 :=
  let back (n : Nat) := schedule.getD (schedule.size - n) 0
  let early := back 15
  let late := back 2
  back 16 + (rotate early 7 ^^^ rotate early 18 ^^^ (early >>> 3)) + back 7
    + (rotate late 17 ^^^ rotate late 19 ^^^ (late >>> 10))

def extend (schedule : Array UInt32) : (count : Nat) → Array UInt32
  | 0 => schedule
  | count + 1 => extend (schedule.push (nextWord schedule)) count

/-- The rounds of a block from the `n`th one on, one for each constant. -/
def rounds (schedule : Array UInt32) (n : Nat) (r : Registers) : List UInt32 → Registers
  | [] => r
  | constant :: rest => rounds schedule (n + 1) (r.round constant (schedule.getD n 0)) rest

def Registers.absorb (r : Registers) (block : Bytes) : Registers :=
  r.add (rounds (extend (words block).toArray 48) 0 r roundConstants)

/-- The registers after all whole blocks, and the bytes that are left. -/
def Registers.absorbAll (r : Registers) (bytes : Bytes) : Registers × Bytes :=
  if _h : Bytes.has 64 bytes then (r.absorb (bytes.take 64)).absorbAll (bytes.drop 64)
  else (r, bytes)
  termination_by bytes.length
  decreasing_by
    have := (Bytes.has_iff 64 bytes).1 _h
    simp only [List.length_drop]
    omega

/-- What pads a message of some length: a one bit, zeros, and the length in bits. -/
def padding (length : Nat) : Bytes :=
  0x80 :: (List.replicate ((119 - length % 64) % 64) 0 ++ (Bytes.digits 8 (8 * length)).reverse)

def Registers.bytes (r : Registers) : Bytes :=
  [r.a, r.b, r.c, r.d, r.e, r.f, r.g, r.h].flatMap fun word => (Bytes.ofWord32 word).reverse

/-- **The SHA-256 digest of a message.** -/
def sha256 (message : Bytes) : Bytes :=
  let (r, rest) := Registers.initial.absorbAll message
  (r.absorbAll (rest ++ padding message.length)).1.bytes

@[simp] theorem length_sha256 (message : Bytes) : (sha256 message).length = 32 := by
  simp [sha256, Registers.bytes]

/-! ## 3. Hexadecimal text -/

def hexDigit (n : Nat) : Char := if n < 10 then Char.ofNat (48 + n) else Char.ofNat (87 + n)

/-- **Two hexadecimal digits for each byte.** -/
def hex (bytes : Bytes) : String :=
  String.ofList (bytes.flatMap fun b => [hexDigit (b.toNat / 16), hexDigit (b.toNat % 16)])

end Digest

end TraceRecorder
