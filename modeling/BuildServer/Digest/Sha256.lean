/-!
# The SHA-256 digest

The digest of the Secure Hash Standard (FIPS 180-4), over lists of octets. A block of sixteen words
is expanded one word per round: the window always holds the next sixteen words of the schedule, so
the schedule is never stored as a whole. It is the digest that `Sha256` of the `sha2` library computes.
-/

set_option autoImplicit false

namespace BuildServer.Digest

/-- The eight words that the rounds work on. -/
structure Sha256State where
  a : UInt32
  b : UInt32
  c : UInt32
  d : UInt32
  e : UInt32
  f : UInt32
  g : UInt32
  h : UInt32

namespace Sha256

/-- The first thirty-two bits of the fractional parts of the square roots of the first primes. -/
def initial : Sha256State :=
  ⟨0x6a09e667, 0xbb67ae85, 0x3c6ef372, 0xa54ff53a, 0x510e527f, 0x9b05688c, 0x1f83d9ab, 0x5be0cd19⟩

/-- The first thirty-two bits of the fractional parts of the cube roots of the first primes. -/
def roundConstants : List UInt32 := [
  0x428a2f98, 0x71374491, 0xb5c0fbcf, 0xe9b5dba5, 0x3956c25b, 0x59f111f1, 0x923f82a4, 0xab1c5ed5,
  0xd807aa98, 0x12835b01, 0x243185be, 0x550c7dc3, 0x72be5d74, 0x80deb1fe, 0x9bdc06a7, 0xc19bf174,
  0xe49b69c1, 0xefbe4786, 0x0fc19dc6, 0x240ca1cc, 0x2de92c6f, 0x4a7484aa, 0x5cb0a9dc, 0x76f988da,
  0x983e5152, 0xa831c66d, 0xb00327c8, 0xbf597fc7, 0xc6e00bf3, 0xd5a79147, 0x06ca6351, 0x14292967,
  0x27b70a85, 0x2e1b2138, 0x4d2c6dfc, 0x53380d13, 0x650a7354, 0x766a0abb, 0x81c2c92e, 0x92722c85,
  0xa2bfe8a1, 0xa81a664b, 0xc24b8b70, 0xc76c51a3, 0xd192e819, 0xd6990624, 0xf40e3585, 0x106aa070,
  0x19a4c116, 0x1e376c08, 0x2748774c, 0x34b0bcb5, 0x391c0cb3, 0x4ed8aa4a, 0x5b9cca4f, 0x682e6ff3,
  0x748f82ee, 0x78a5636f, 0x84c87814, 0x8cc70208, 0x90befffa, 0xa4506ceb, 0xbef9a3f7, 0xc67178f2]

/-- Turns a word to the right by `n` bits. -/
def rotate (w : UInt32) (n : UInt32) : UInt32 :=
  (w >>> n) ||| (w <<< (32 - n))

/-- The word of the schedule sixteen places after the first one of the window. -/
def nextWord (window : List UInt32) : UInt32 :=
  let word := fun (i : Nat) => window.getD i 0
  let low := rotate (word 1) 7 ^^^ rotate (word 1) 18 ^^^ (word 1 >>> 3)
  let high := rotate (word 14) 17 ^^^ rotate (word 14) 19 ^^^ (word 14 >>> 10)
  word 0 + low + word 9 + high

/-- One round, with its constant and its word of the schedule. -/
def mix (s : Sha256State) (constant word : UInt32) : Sha256State :=
  let sumE := rotate s.e 6 ^^^ rotate s.e 11 ^^^ rotate s.e 25
  let choice := (s.e &&& s.f) ^^^ ((~~~s.e) &&& s.g)
  let sumA := rotate s.a 2 ^^^ rotate s.a 13 ^^^ rotate s.a 22
  let majority := (s.a &&& s.b) ^^^ (s.a &&& s.c) ^^^ (s.b &&& s.c)
  let first := s.h + sumE + choice + constant + word
  ⟨first + sumA + majority, s.a, s.b, s.c, s.d + first, s.e, s.f, s.g⟩

/-- The rounds with the given constants, from the window of the schedule. -/
def rounds : List UInt32 → List UInt32 → Sha256State → Sha256State
  | [], _, s => s
  | constant :: constants, window, s =>
    rounds constants (window.tail ++ [nextWord window]) (mix s constant (window.getD 0 0))

/-- Takes one block of sixteen words into the state. -/
def compress (s : Sha256State) (block : List UInt32) : Sha256State :=
  let t := rounds roundConstants block s
  ⟨s.a + t.a, s.b + t.b, s.c + t.c, s.d + t.d, s.e + t.e, s.f + t.f, s.g + t.g, s.h + t.h⟩

/-- A number as octets, most significant first. -/
def bigEndian : (count : Nat) → Nat → List UInt8
  | 0, _ => []
  | count + 1, n => bigEndian count (n / 256) ++ [UInt8.ofNat n]

/-- The message with a one bit, zeros and its length in bits, filled up to whole blocks. -/
def pad (message : List UInt8) : List UInt8 :=
  let zeros := (119 - message.length % 64) % 64
  message ++ [0x80] ++ List.replicate zeros 0 ++ bigEndian 8 (8 * message.length)

/-- The octets as words, most significant octet first. -/
def toWords : List UInt8 → List UInt32
  | w :: x :: y :: z :: rest =>
    ((w.toUInt32 <<< 24) ||| (x.toUInt32 <<< 16) ||| (y.toUInt32 <<< 8) ||| z.toUInt32) ::
      toWords rest
  | _ => []

/-- The words in blocks of sixteen. -/
def toBlocks (words : List UInt32) : List (List UInt32) :=
  (List.range (words.length / 16)).map fun i => (words.drop (16 * i)).take 16

/-- The words of the state. -/
def toList (s : Sha256State) : List UInt32 :=
  [s.a, s.b, s.c, s.d, s.e, s.f, s.g, s.h]

/-- The digest as octets. -/
def digest (message : List UInt8) : List UInt8 :=
  let s := (toBlocks (toWords (pad message))).foldl compress initial
  (toList s).flatMap fun w => bigEndian 4 w.toNat

end Sha256

/-- An octet as two hexadecimal digits. -/
def hexOctet (b : UInt8) : List Char :=
  [Nat.digitChar (b.toNat / 16), Nat.digitChar (b.toNat % 16)]

/-- The digest of a text in UTF-8, in hexadecimal digits (`hex::encode`). -/
def sha256 (s : String) : String :=
  String.ofList ((Sha256.digest s.toUTF8.data.toList).flatMap hexOctet)

end BuildServer.Digest
