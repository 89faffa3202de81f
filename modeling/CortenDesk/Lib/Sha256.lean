import CortenDesk.Lib.Radix

/-!
SHA-256 as FIPS 180-4 defines it, for messages of whole bytes. The constants are the first
thirty-two bits behind the point of the cube roots of the first sixty-four primes, and the initial
hash value those of the square roots of the first eight.
-/
namespace Sha256
open CortenDesk
universe u

abbrev Word := BitVec 32

/-- The working variables, or the words of a hash value. -/
@[ext] structure Words (α : Type u) where
  a : α
  b : α
  c : α
  d : α
  e : α
  f : α
  g : α
  h : α

def Words.toList {α : Type u} (v : Words α) : List α := [v.a, v.b, v.c, v.d, v.e, v.f, v.g, v.h]

def ch (x y z : Word) : Word := (x &&& y) ^^^ (~~~x &&& z)

def maj (x y z : Word) : Word := (x &&& y) ^^^ (x &&& z) ^^^ (y &&& z)

def bigSigma0 (x : Word) : Word := x.rotateRight 2 ^^^ x.rotateRight 13 ^^^ x.rotateRight 22

def bigSigma1 (x : Word) : Word := x.rotateRight 6 ^^^ x.rotateRight 11 ^^^ x.rotateRight 25

def smallSigma0 (x : Word) : Word := x.rotateRight 7 ^^^ x.rotateRight 18 ^^^ x >>> 3

def smallSigma1 (x : Word) : Word := x.rotateRight 17 ^^^ x.rotateRight 19 ^^^ x >>> 10

def constants : List Word :=
  [0x428a2f98, 0x71374491, 0xb5c0fbcf, 0xe9b5dba5, 0x3956c25b, 0x59f111f1, 0x923f82a4, 0xab1c5ed5,
    0xd807aa98, 0x12835b01, 0x243185be, 0x550c7dc3, 0x72be5d74, 0x80deb1fe, 0x9bdc06a7, 0xc19bf174,
    0xe49b69c1, 0xefbe4786, 0x0fc19dc6, 0x240ca1cc, 0x2de92c6f, 0x4a7484aa, 0x5cb0a9dc, 0x76f988da,
    0x983e5152, 0xa831c66d, 0xb00327c8, 0xbf597fc7, 0xc6e00bf3, 0xd5a79147, 0x06ca6351, 0x14292967,
    0x27b70a85, 0x2e1b2138, 0x4d2c6dfc, 0x53380d13, 0x650a7354, 0x766a0abb, 0x81c2c92e, 0x92722c85,
    0xa2bfe8a1, 0xa81a664b, 0xc24b8b70, 0xc76c51a3, 0xd192e819, 0xd6990624, 0xf40e3585, 0x106aa070,
    0x19a4c116, 0x1e376c08, 0x2748774c, 0x34b0bcb5, 0x391c0cb3, 0x4ed8aa4a, 0x5b9cca4f, 0x682e6ff3,
    0x748f82ee, 0x78a5636f, 0x84c87814, 0x8cc70208, 0x90befffa, 0xa4506ceb, 0xbef9a3f7, 0xc67178f2]

def initial : Words Word where
  a := 0x6a09e667
  b := 0xbb67ae85
  c := 0x3c6ef372
  d := 0xa54ff53a
  e := 0x510e527f
  f := 0x9b05688c
  g := 0x1f83d9ab
  h := 0x5be0cd19

/-- The message schedule of a block with the words `message`. -/
def schedule (message : Nat → Word) (t : Nat) : Word :=
  if t < 16 then message t
  else
    smallSigma1 (schedule message (t - 2)) + schedule message (t - 7) +
      smallSigma0 (schedule message (t - 15)) + schedule message (t - 16)

def round (v : Words Word) (k w : Word) : Words Word :=
  let t1 := v.h + bigSigma1 v.e + ch v.e v.f v.g + k + w
  let t2 := bigSigma0 v.a + maj v.a v.b v.c
  { a := t1 + t2, b := v.a, c := v.b, d := v.c, e := v.d + t1, f := v.e, g := v.f, h := v.g }

/-- The rounds with some of the constants and words of the schedule, in order. -/
def rounds (indices : List Nat) (message : Nat → Word) (v : Words Word) : Words Word :=
  indices.foldl (fun v t => round v (constants.getD t 0) (schedule message t)) v

def compress (hash : Words Word) (message : Nat → Word) : Words Word :=
  let v := rounds (List.range 64) message hash
  { a := v.a + hash.a, b := v.b + hash.b, c := v.c + hash.c, d := v.d + hash.d,
    e := v.e + hash.e, f := v.f + hash.f, g := v.g + hash.g, h := v.h + hash.h }

/-- The zero bytes between the byte behind the message and its length. -/
def zeros (length : Nat) : Nat := (119 - length % 64) % 64

/-- The message, a one bit, zeros, and its length in bits, in whole blocks. -/
def pad (message : List UInt8) : List UInt8 :=
  message ++ 0x80 :: List.replicate (zeros message.length) 0 ++ beBytes 8 (8 * message.length)

/-- The word that begins at a place of the bytes, the highest byte first. -/
def wordAt (bytes : List UInt8) (place : Nat) : Word :=
  let byte := fun i => (bytes.getD (place + i) 0).toBitVec
  byte 0 ++ byte 1 ++ byte 2 ++ byte 3

def wordBytes (w : Word) : List UInt8 := beBytes 4 w.toNat

/-- The hash value after the last block. -/
def hashWords (message : List UInt8) : Words Word :=
  let padded := pad message
  (List.range (padded.length / 64)).foldl
    (fun hash i => compress hash fun t => wordAt padded (64 * i + 4 * t)) initial

def digest (message : List UInt8) : List UInt8 := (hashWords message).toList.flatMap wordBytes

theorem schedule_lt (message : Nat → Word) {t : Nat} (early : t < 16) :
    schedule message t = message t := by
  rw [schedule, if_pos early]

theorem schedule_ge (message : Nat → Word) {t : Nat} (late : 16 ≤ t) :
    schedule message t =
      smallSigma1 (schedule message (t - 2)) + schedule message (t - 7) +
        smallSigma0 (schedule message (t - 15)) + schedule message (t - 16) := by
  rw [schedule, if_neg (by omega)]

/-- The zeros are the fewest that leave eight bytes of the last block. -/
theorem zeros_least (length : Nat) :
    (length + 1 + zeros length) % 64 = 56 ∧
      ∀ k, (length + 1 + k) % 64 = 56 → zeros length ≤ k := by
  unfold zeros
  constructor
  · omega
  · intro k fits
    omega

theorem pad_length (message : List UInt8) :
    (pad message).length = 64 * ((message.length + 8) / 64 + 1) := by
  simp only [pad, List.length_append, List.length_cons, List.length_replicate, beBytes_length,
    zeros]
  omega

/-- A word agrees with the bits behind the point of a root of a prime. -/
def IsRootWord (degree prime : Nat) (w : Word) : Prop :=
  ∃ whole < 32, (whole * 2 ^ 32 + w.toNat) ^ degree ≤ prime * 2 ^ (32 * degree) ∧
    prime * 2 ^ (32 * degree) < (whole * 2 ^ 32 + w.toNat + 1) ^ degree

def primes : List Nat :=
  [2, 3, 5, 7, 11, 13, 17, 19, 23, 29, 31, 37, 41, 43, 47, 53, 59, 61, 67, 71, 73, 79, 83, 89, 97,
    101, 103, 107, 109, 113, 127, 131, 137, 139, 149, 151, 157, 163, 167, 173, 179, 181, 191, 193,
    197, 199, 211, 223, 227, 229, 233, 239, 241, 251, 257, 263, 269, 271, 277, 281, 283, 293, 307,
    311]

instance (degree prime : Nat) (w : Word) : Decidable (IsRootWord degree prime w) :=
  inferInstanceAs (Decidable (∃ whole < 32,
    (whole * 2 ^ 32 + w.toNat) ^ degree ≤ prime * 2 ^ (32 * degree) ∧
      prime * 2 ^ (32 * degree) < (whole * 2 ^ 32 + w.toNat + 1) ^ degree))

set_option maxRecDepth 4000 in
theorem constants_roots : List.Forall₂ (IsRootWord 3) primes constants := by decide

theorem initial_roots : List.Forall₂ (IsRootWord 2) (primes.take 8) initial.toList := by decide

end Sha256
