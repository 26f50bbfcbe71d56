import Templating.Text.Quoted

/-!
# Digests

The SHA-256 digest of a sequence of bytes, written as 64 hexadecimal digits. The message is padded
to blocks of 64 bytes, and each block is mixed into eight registers in 64 rounds.
-/

namespace Templating.Digest

def roundConstants : List UInt32 := [
  0x428a2f98, 0x71374491, 0xb5c0fbcf, 0xe9b5dba5, 0x3956c25b, 0x59f111f1, 0x923f82a4, 0xab1c5ed5,
  0xd807aa98, 0x12835b01, 0x243185be, 0x550c7dc3, 0x72be5d74, 0x80deb1fe, 0x9bdc06a7, 0xc19bf174,
  0xe49b69c1, 0xefbe4786, 0x0fc19dc6, 0x240ca1cc, 0x2de92c6f, 0x4a7484aa, 0x5cb0a9dc, 0x76f988da,
  0x983e5152, 0xa831c66d, 0xb00327c8, 0xbf597fc7, 0xc6e00bf3, 0xd5a79147, 0x06ca6351, 0x14292967,
  0x27b70a85, 0x2e1b2138, 0x4d2c6dfc, 0x53380d13, 0x650a7354, 0x766a0abb, 0x81c2c92e, 0x92722c85,
  0xa2bfe8a1, 0xa81a664b, 0xc24b8b70, 0xc76c51a3, 0xd192e819, 0xd6990624, 0xf40e3585, 0x106aa070,
  0x19a4c116, 0x1e376c08, 0x2748774c, 0x34b0bcb5, 0x391c0cb3, 0x4ed8aa4a, 0x5b9cca4f, 0x682e6ff3,
  0x748f82ee, 0x78a5636f, 0x84c87814, 0x8cc70208, 0x90befffa, 0xa4506ceb, 0xbef9a3f7, 0xc67178f2]

structure Registers where
  a : UInt32
  b : UInt32
  c : UInt32
  d : UInt32
  e : UInt32
  f : UInt32
  g : UInt32
  h : UInt32
deriving DecidableEq, Repr

def initial : Registers :=
  ⟨0x6a09e667, 0xbb67ae85, 0x3c6ef372, 0xa54ff53a,
    0x510e527f, 0x9b05688c, 0x1f83d9ab, 0x5be0cd19⟩

namespace Registers

def add (x y : Registers) : Registers :=
  ⟨x.a + y.a, x.b + y.b, x.c + y.c, x.d + y.d, x.e + y.e, x.f + y.f, x.g + y.g, x.h + y.h⟩

def toList (x : Registers) : List UInt32 := [x.a, x.b, x.c, x.d, x.e, x.f, x.g, x.h]

end Registers

def rotateRight (x n : UInt32) : UInt32 := (x >>> n) ||| (x <<< (32 - n))

def spread0 (x : UInt32) : UInt32 := rotateRight x 7 ^^^ rotateRight x 18 ^^^ (x >>> 3)

def spread1 (x : UInt32) : UInt32 := rotateRight x 17 ^^^ rotateRight x 19 ^^^ (x >>> 10)

def mix0 (x : UInt32) : UInt32 := rotateRight x 2 ^^^ rotateRight x 13 ^^^ rotateRight x 22

def mix1 (x : UInt32) : UInt32 := rotateRight x 6 ^^^ rotateRight x 11 ^^^ rotateRight x 25

def round (r : Registers) (constant word : UInt32) : Registers :=
  let choice := (r.e &&& r.f) ^^^ (~~~r.e &&& r.g)
  let majority := (r.a &&& r.b) ^^^ (r.a &&& r.c) ^^^ (r.b &&& r.c)
  let first := r.h + mix1 r.e + choice + constant + word
  let second := mix0 r.a + majority
  ⟨first + second, r.a, r.b, r.c, r.d + first, r.e, r.f, r.g⟩

/-- The window of sixteen words moved on by one. -/
def slide (window : List UInt32) : List UInt32 :=
  match window with
  | w0 :: w1 :: rest =>
    let next := spread1 ((rest[12]?).getD 0) + (rest[7]?).getD 0 + spread0 w1 + w0
    w1 :: rest ++ [next]
  | short => short

def rounds (r : Registers) (window : List UInt32) : List UInt32 → Registers
  | [] => r
  | constant :: rest => rounds (round r constant (window.headD 0)) (slide window) rest

def wordOf (bytes : List UInt8) : UInt32 :=
  bytes.foldl (fun word b => word * 256 + b.toUInt32) 0

def words : List UInt8 → List UInt32
  | a :: b :: c :: d :: rest => wordOf [a, b, c, d] :: words rest
  | _ => []

def absorb (r : Registers) (block : List UInt8) : Registers :=
  r.add (rounds r (words block) roundConstants)

/-- A natural number as `width` bytes, the greatest first. -/
def bigEndian (width n : Nat) : List UInt8 :=
  (List.range width).reverse.map fun k => UInt8.ofNat (n >>> (8 * k))

/-- The message with a one bit, zeros, and its length in bits. -/
def pad (message : List UInt8) : List UInt8 :=
  let used := message.length + 9
  message ++ 0x80 :: List.replicate ((64 - used % 64) % 64) 0 ++ bigEndian 8 (8 * message.length)

def absorbBlocks : Nat → Registers → List UInt8 → Registers
  | 0, r, _ => r
  | n + 1, r, bytes => absorbBlocks n (absorb r (bytes.take 64)) (bytes.drop 64)

def sha256 (message : List UInt8) : Registers :=
  let padded := pad message
  absorbBlocks (padded.length / 64) initial padded

def text (message : List UInt8) : String :=
  String.ofList ((sha256 message).toList.flatMap fun word => Text.hexText 8 word.toNat)

theorem length_pad_mod (message : List UInt8) : (pad message).length % 64 = 0 := by
  simp [pad, bigEndian]
  omega

end Templating.Digest
