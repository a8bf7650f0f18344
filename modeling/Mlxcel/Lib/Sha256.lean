import Mlxcel.Lib.Delimited

/-!
# 32-byte digests and SHA-256

`Digest` is the type of 32-byte strings, and `sha256` the hash function of FIPS 180-4 on byte
lists. Words are natural numbers below `2 ^ 32`; the compression loop keeps the message schedule
as a window of sixteen words that moves with the round constants. The function is written to be
evaluated by the kernel, so that a statement about a concrete message can be decided.

**FIPS 180-4.**
* `ch`, `maj`, `bigSigma0`, `bigSigma1`, `smallSigma0`, `smallSigma1` are the functions of
  section 4.1.2 and `roundConstants` the words of section 4.2.2;
* `pad` is the padding of section 5.1.1, `initialState` the words of section 5.3.3;
* `round`, `rounds` and `compress` are the computation of section 6.2.2.
-/

/-- A 32-byte string. -/
structure Digest where
  /-- The bytes of the digest. -/
  bytes : List UInt8
  /-- There are 32 of them. -/
  length_bytes : bytes.length = 32
deriving DecidableEq, Repr

namespace Digest

/-- The digest of 32 zero bytes. -/
def zero : Digest := ⟨List.replicate 32 0, rfl⟩

attribute [simp] length_bytes

lemma bytes_injective : Function.Injective bytes := by
  rintro ⟨a, _⟩ ⟨b, _⟩ h
  simpa using h

lemma selfDelimiting : Delimited.SelfDelimitingOn Set.univ bytes :=
  .of_length_eq 32 length_bytes bytes_injective.injOn

end Digest

namespace Sha256

/-- Rotation of a 32-bit word to the right. -/
def rotr (x n : ℕ) : ℕ := (x >>> n) ||| ((x <<< (32 - n)) % 2 ^ 32)

def ch (x y z : ℕ) : ℕ := (x &&& y) ^^^ ((x ^^^ 0xffffffff) &&& z)

def maj (x y z : ℕ) : ℕ := (x &&& y) ^^^ (x &&& z) ^^^ (y &&& z)

def bigSigma0 (x : ℕ) : ℕ := rotr x 2 ^^^ rotr x 13 ^^^ rotr x 22

def bigSigma1 (x : ℕ) : ℕ := rotr x 6 ^^^ rotr x 11 ^^^ rotr x 25

def smallSigma0 (x : ℕ) : ℕ := rotr x 7 ^^^ rotr x 18 ^^^ (x >>> 3)

def smallSigma1 (x : ℕ) : ℕ := rotr x 17 ^^^ rotr x 19 ^^^ (x >>> 10)

/-- The 64 round constants. -/
def roundConstants : List ℕ := [
  0x428a2f98, 0x71374491, 0xb5c0fbcf, 0xe9b5dba5, 0x3956c25b, 0x59f111f1, 0x923f82a4, 0xab1c5ed5,
  0xd807aa98, 0x12835b01, 0x243185be, 0x550c7dc3, 0x72be5d74, 0x80deb1fe, 0x9bdc06a7, 0xc19bf174,
  0xe49b69c1, 0xefbe4786, 0x0fc19dc6, 0x240ca1cc, 0x2de92c6f, 0x4a7484aa, 0x5cb0a9dc, 0x76f988da,
  0x983e5152, 0xa831c66d, 0xb00327c8, 0xbf597fc7, 0xc6e00bf3, 0xd5a79147, 0x06ca6351, 0x14292967,
  0x27b70a85, 0x2e1b2138, 0x4d2c6dfc, 0x53380d13, 0x650a7354, 0x766a0abb, 0x81c2c92e, 0x92722c85,
  0xa2bfe8a1, 0xa81a664b, 0xc24b8b70, 0xc76c51a3, 0xd192e819, 0xd6990624, 0xf40e3585, 0x106aa070,
  0x19a4c116, 0x1e376c08, 0x2748774c, 0x34b0bcb5, 0x391c0cb3, 0x4ed8aa4a, 0x5b9cca4f, 0x682e6ff3,
  0x748f82ee, 0x78a5636f, 0x84c87814, 0x8cc70208, 0x90befffa, 0xa4506ceb, 0xbef9a3f7, 0xc67178f2]

/-- The eight working words. -/
structure State where
  (a b c d e f g h : ℕ)

/-- The words every message starts from. -/
def initialState : State :=
  ⟨0x6a09e667, 0xbb67ae85, 0x3c6ef372, 0xa54ff53a, 0x510e527f, 0x9b05688c, 0x1f83d9ab, 0x5be0cd19⟩

/-- One round, with constant `k` and schedule word `w`. -/
def round (s : State) (k w : ℕ) : State :=
  let t1 := s.h + bigSigma1 s.e + ch s.e s.f s.g + k + w
  let t2 := bigSigma0 s.a + maj s.a s.b s.c
  ⟨(t1 + t2) % 2 ^ 32, s.a, s.b, s.c, (s.d + t1) % 2 ^ 32, s.e, s.f, s.g⟩

/-- The rounds of one block: the window holds the next sixteen words of the schedule. -/
def rounds : List ℕ → State → List ℕ → State
  | [], s, _ => s
  | k :: ks, s, w :: ws =>
    let next := (smallSigma1 (ws.getD 13 0) + ws.getD 8 0 + smallSigma0 (ws.getD 0 0) + w) % 2 ^ 32
    rounds ks (round s k w) (ws ++ [next])
  | _ :: _, s, [] => s

/-- The big-endian words of a byte string. -/
def words : List ℕ → List ℕ
  | a :: b :: c :: d :: rest => (a <<< 24 + b <<< 16 + c <<< 8 + d) :: words rest
  | _ => []

/-- The state after one 64-byte block. -/
def compress (s : State) (block : List ℕ) : State :=
  let t := rounds roundConstants s (words block)
  ⟨(s.a + t.a) % 2 ^ 32, (s.b + t.b) % 2 ^ 32, (s.c + t.c) % 2 ^ 32, (s.d + t.d) % 2 ^ 32,
   (s.e + t.e) % 2 ^ 32, (s.f + t.f) % 2 ^ 32, (s.g + t.g) % 2 ^ 32, (s.h + t.h) % 2 ^ 32⟩

/-- The `w`-byte big-endian rendering of `n`. -/
def beBytes (w n : ℕ) : List ℕ := (List.range w).reverse.map fun i => (n >>> (8 * i)) % 256

/-- The message followed by a one bit, zeros and the bit length. -/
def pad (m : List ℕ) : List ℕ :=
  m ++ [0x80] ++ List.replicate ((119 - m.length % 64) % 64) 0 ++ beBytes 8 (8 * m.length)

/-- The state after `n` blocks. -/
def compressBlocks : ℕ → State → List ℕ → State
  | 0, s, _ => s
  | n + 1, s, bytes => compressBlocks n (compress s (bytes.take 64)) (bytes.drop 64)

end Sha256

/-- SHA-256 of a byte string. -/
def sha256 (message : List UInt8) : Digest :=
  let padded := Sha256.pad (message.map UInt8.toNat)
  let s := Sha256.compressBlocks (padded.length / 64) Sha256.initialState padded
  ⟨[s.a, s.b, s.c, s.d, s.e, s.f, s.g, s.h].flatMap fun w => (Sha256.beBytes 4 w).map UInt8.ofNat,
    by simp [Sha256.beBytes]⟩

-- The test vector of FIPS 180-4 for the message "abc".
example : (sha256 [0x61, 0x62, 0x63]).bytes = [
    0xba, 0x78, 0x16, 0xbf, 0x8f, 0x01, 0xcf, 0xea, 0x41, 0x41, 0x40, 0xde, 0x5d, 0xae, 0x22, 0x23,
    0xb0, 0x03, 0x61, 0xa3, 0x96, 0x17, 0x7a, 0x9c, 0xb4, 0x10, 0xff, 0x61, 0xf2, 0x00, 0x15,
    0xad] := by
  decide +kernel
