import Mathlib.Algebra.Group.Nat.Defs
import SocialActivities.Lib.Text

/-!
# `SocialActivities.Lib.Sha256`: SHA-256 on natural numbers

The hash as its standard describes it: the message is padded to blocks of 64 bytes, each block is
expanded to 64 words, and 64 rounds mix them into eight words. A word is a natural number below
`2 ^ 32`; additions are taken modulo `2 ^ 32`. `sha256 s` is the digest of the UTF-8 bytes of a
text in lower-case hexadecimal, so it always has 64 characters (`length_sha256`). `hmacSha256` is
the keyed hash built on it.
-/

namespace SocialActivities.Lib

namespace Sha256

def word (n : Nat) : Nat := n % 2 ^ 32

/-- Rotation to the right by `k` bits. -/
def rotr (k x : Nat) : Nat := x >>> k ||| word (x <<< (32 - k))

def bigSigma0 (x : Nat) : Nat := rotr 2 x ^^^ rotr 13 x ^^^ rotr 22 x
def bigSigma1 (x : Nat) : Nat := rotr 6 x ^^^ rotr 11 x ^^^ rotr 25 x
def smallSigma0 (x : Nat) : Nat := rotr 7 x ^^^ rotr 18 x ^^^ x >>> 3
def smallSigma1 (x : Nat) : Nat := rotr 17 x ^^^ rotr 19 x ^^^ x >>> 10

def choose (x y z : Nat) : Nat := x &&& y ^^^ (2 ^ 32 - 1 - x) &&& z
def majority (x y z : Nat) : Nat := x &&& y ^^^ x &&& z ^^^ y &&& z

/-- The round constants: the first 32 bits of the fractional parts of the cube roots of the
first 64 primes. -/
def roundConstants : List Nat :=
  [0x428a2f98, 0x71374491, 0xb5c0fbcf, 0xe9b5dba5, 0x3956c25b, 0x59f111f1, 0x923f82a4, 0xab1c5ed5,
   0xd807aa98, 0x12835b01, 0x243185be, 0x550c7dc3, 0x72be5d74, 0x80deb1fe, 0x9bdc06a7, 0xc19bf174,
   0xe49b69c1, 0xefbe4786, 0x0fc19dc6, 0x240ca1cc, 0x2de92c6f, 0x4a7484aa, 0x5cb0a9dc, 0x76f988da,
   0x983e5152, 0xa831c66d, 0xb00327c8, 0xbf597fc7, 0xc6e00bf3, 0xd5a79147, 0x06ca6351, 0x14292967,
   0x27b70a85, 0x2e1b2138, 0x4d2c6dfc, 0x53380d13, 0x650a7354, 0x766a0abb, 0x81c2c92e, 0x92722c85,
   0xa2bfe8a1, 0xa81a664b, 0xc24b8b70, 0xc76c51a3, 0xd192e819, 0xd6990624, 0xf40e3585, 0x106aa070,
   0x19a4c116, 0x1e376c08, 0x2748774c, 0x34b0bcb5, 0x391c0cb3, 0x4ed8aa4a, 0x5b9cca4f, 0x682e6ff3,
   0x748f82ee, 0x78a5636f, 0x84c87814, 0x8cc70208, 0x90befffa, 0xa4506ceb, 0xbef9a3f7, 0xc67178f2]

/-- The eight words of the state. -/
structure Words where
  a : Nat
  b : Nat
  c : Nat
  d : Nat
  e : Nat
  f : Nat
  g : Nat
  h : Nat

/-- The first state: the first 32 bits of the fractional parts of the square roots of the first
8 primes. -/
def initial : Words :=
  ⟨0x6a09e667, 0xbb67ae85, 0x3c6ef372, 0xa54ff53a, 0x510e527f, 0x9b05688c, 0x1f83d9ab, 0x5be0cd19⟩

def round (s : Words) (k w : Nat) : Words :=
  let t1 := s.h + bigSigma1 s.e + choose s.e s.f s.g + k + w
  let t2 := bigSigma0 s.a + majority s.a s.b s.c
  ⟨word (t1 + t2), s.a, s.b, s.c, word (s.d + t1), s.e, s.f, s.g⟩

def rounds (s : Words) (ks ws : List Nat) : Words :=
  (List.zip ks ws).foldl (fun s kw => round s kw.1 kw.2) s

/-- The next word of the schedule, from the words before it, the last one first. -/
def nextWord (ws : List Nat) : Nat :=
  word (smallSigma1 (ws.getD 1 0) + ws.getD 6 0 + smallSigma0 (ws.getD 14 0) + ws.getD 15 0)

def extend : Nat → List Nat → List Nat
  | 0, ws => ws
  | n + 1, ws => extend n (nextWord ws :: ws)

/-- The words that `n` groups of four bytes write. -/
def toWords : Nat → List Nat → List Nat
  | n + 1, b0 :: b1 :: b2 :: b3 :: bs =>
    (((b0 * 256 + b1) * 256 + b2) * 256 + b3) :: toWords n bs
  | _, _ => []

def schedule (block : List Nat) : List Nat := (extend 48 (toWords 16 block).reverse).reverse

def compress (s : Words) (block : List Nat) : Words :=
  let r := rounds s roundConstants (schedule block)
  ⟨word (s.a + r.a), word (s.b + r.b), word (s.c + r.c), word (s.d + r.d),
    word (s.e + r.e), word (s.f + r.f), word (s.g + r.g), word (s.h + r.h)⟩

/-- The last `k` bytes of a number, the most significant first. -/
def bytesPad : Nat → Nat → List Nat
  | 0, _ => []
  | k + 1, n => bytesPad k (n / 256) ++ [n % 256]

/-- The message, a one bit, zeros up to a whole block, and the length in bits. -/
def padded (bytes : List Nat) : List Nat :=
  bytes ++ 128 :: List.replicate ((119 - bytes.length % 64) % 64) 0 ++ bytesPad 8 (bytes.length * 8)

def blocks : Nat → Words → List Nat → Words
  | 0, s, _ => s
  | n + 1, s, bytes => blocks n (compress s (bytes.take 64)) (bytes.drop 64)

def hexdigest (s : Words) : List Char :=
  hexPad 8 s.a ++ hexPad 8 s.b ++ hexPad 8 s.c ++ hexPad 8 s.d ++ hexPad 8 s.e ++ hexPad 8 s.f
    ++ hexPad 8 s.g ++ hexPad 8 s.h

end Sha256

open Sha256

/-- The hexadecimal SHA-256 digest of a text. -/
def sha256 (s : List Char) : List Char :=
  let message := padded (utf8 s)
  hexdigest (blocks (message.length / 64) initial message)

namespace Sha256

def digest (bytes : List Nat) : Words :=
  let message := padded bytes
  blocks (message.length / 64) initial message

/-- The digest as 32 bytes. -/
def digestBytes (s : Words) : List Nat :=
  bytesPad 4 s.a ++ bytesPad 4 s.b ++ bytesPad 4 s.c ++ bytesPad 4 s.d ++ bytesPad 4 s.e
    ++ bytesPad 4 s.f ++ bytesPad 4 s.g ++ bytesPad 4 s.h

/-- The key of an HMAC as one block: hashed when it is longer, then filled with zeros. -/
def keyBlock (key : List Nat) : List Nat :=
  let short := if key.length ≤ 64 then key else digestBytes (digest key)
  short ++ List.replicate (64 - short.length) 0

end Sha256

/-- The HMAC of a text under a key, in hexadecimal. -/
def hmacSha256 (key message : List Char) : List Char :=
  let block := keyBlock (utf8 key)
  let inner := digest (block.map (· ^^^ 0x36) ++ utf8 message)
  hexdigest (digest (block.map (· ^^^ 0x5c) ++ digestBytes inner))

theorem length_sha256 (s : List Char) : (sha256 s).length = 64 := by
  simp only [sha256, hexdigest, List.length_append, length_hexPad]

theorem exists_hexChar_of_mem_sha256 {s : List Char} {c : Char} (h : c ∈ sha256 s) :
    ∃ m < 16, c = hexChar m := by
  simp only [sha256, hexdigest, List.mem_append] at h
  rcases h with ((((((h | h) | h) | h) | h) | h) | h) | h <;> exact exists_hexChar_of_mem_hexPad h

end SocialActivities.Lib
