import Mathlib.Logic.Basic

namespace Codec.Sha256

/-- The first 32 bits of the fractional parts of the cube roots of the first
64 primes. -/
def roundConstants : List (BitVec 32) :=
  [0x428a2f98, 0x71374491, 0xb5c0fbcf, 0xe9b5dba5, 0x3956c25b, 0x59f111f1, 0x923f82a4, 0xab1c5ed5,
   0xd807aa98, 0x12835b01, 0x243185be, 0x550c7dc3, 0x72be5d74, 0x80deb1fe, 0x9bdc06a7, 0xc19bf174,
   0xe49b69c1, 0xefbe4786, 0x0fc19dc6, 0x240ca1cc, 0x2de92c6f, 0x4a7484aa, 0x5cb0a9dc, 0x76f988da,
   0x983e5152, 0xa831c66d, 0xb00327c8, 0xbf597fc7, 0xc6e00bf3, 0xd5a79147, 0x06ca6351, 0x14292967,
   0x27b70a85, 0x2e1b2138, 0x4d2c6dfc, 0x53380d13, 0x650a7354, 0x766a0abb, 0x81c2c92e, 0x92722c85,
   0xa2bfe8a1, 0xa81a664b, 0xc24b8b70, 0xc76c51a3, 0xd192e819, 0xd6990624, 0xf40e3585, 0x106aa070,
   0x19a4c116, 0x1e376c08, 0x2748774c, 0x34b0bcb5, 0x391c0cb3, 0x4ed8aa4a, 0x5b9cca4f, 0x682e6ff3,
   0x748f82ee, 0x78a5636f, 0x84c87814, 0x8cc70208, 0x90befffa, 0xa4506ceb, 0xbef9a3f7, 0xc67178f2]

structure State where
  a : BitVec 32
  b : BitVec 32
  c : BitVec 32
  d : BitVec 32
  e : BitVec 32
  f : BitVec 32
  g : BitVec 32
  h : BitVec 32

def start : State :=
  ⟨0x6a09e667, 0xbb67ae85, 0x3c6ef372, 0xa54ff53a, 0x510e527f, 0x9b05688c, 0x1f83d9ab, 0x5be0cd19⟩

def bigEndian (width n : Nat) : List (BitVec 8) :=
  (List.range width).map fun i => BitVec.ofNat 8 (n >>> (8 * (width - 1 - i)))

def padded (message : List (BitVec 8)) : List (BitVec 8) :=
  let zeros := (119 - message.length % 64) % 64
  message ++ 0x80 :: List.replicate zeros 0 ++ bigEndian 8 (8 * message.length)

def word : List (BitVec 8) → BitVec 32
  | [a, b, c, d] => a ++ b ++ c ++ d
  | _ => 0

/-- One word of the message schedule from the sixteen words before it, the
newest first. -/
def scheduled (window : List (BitVec 32)) : BitVec 32 :=
  let w2 := window.getD 1 0
  let w15 := window.getD 14 0
  let s0 := w15.rotateRight 7 ^^^ w15.rotateRight 18 ^^^ (w15 >>> 3)
  let s1 := w2.rotateRight 17 ^^^ w2.rotateRight 19 ^^^ (w2 >>> 10)
  window.getD 15 0 + s0 + window.getD 6 0 + s1

def round (s : State) (k w : BitVec 32) : State :=
  let s1 := s.e.rotateRight 6 ^^^ s.e.rotateRight 11 ^^^ s.e.rotateRight 25
  let choose := (s.e &&& s.f) ^^^ (~~~s.e &&& s.g)
  let t1 := s.h + s1 + choose + k + w
  let s0 := s.a.rotateRight 2 ^^^ s.a.rotateRight 13 ^^^ s.a.rotateRight 22
  let majority := (s.a &&& s.b) ^^^ (s.a &&& s.c) ^^^ (s.b &&& s.c)
  ⟨t1 + (s0 + majority), s.a, s.b, s.c, s.d + t1, s.e, s.f, s.g⟩

def extend : Nat → List (BitVec 32) → List (BitVec 32)
  | 0, words => words
  | n + 1, words => extend n (scheduled words :: words)

def compress (s : State) (block : List (BitVec 8)) : State :=
  let first := (List.range 16).map fun i => word ((block.drop (4 * i)).take 4)
  let words := (extend 48 first.reverse).reverse
  let t := (roundConstants.zip words).foldl (fun s kw => round s kw.1 kw.2) s
  ⟨s.a + t.a, s.b + t.b, s.c + t.c, s.d + t.d, s.e + t.e, s.f + t.f, s.g + t.g, s.h + t.h⟩

def blocks : Nat → List (BitVec 8) → State → State
  | 0, _, s => s
  | n + 1, bytes, s => blocks n (bytes.drop 64) (compress s (bytes.take 64))

/-- The SHA-256 digest of a message. -/
def digest (message : List (BitVec 8)) : List (BitVec 32) :=
  let bytes := padded message
  let s := blocks (bytes.length / 64) bytes start
  [s.a, s.b, s.c, s.d, s.e, s.f, s.g, s.h]

/-- `hashlib.sha256(message).hexdigest()`. -/
def hexDigest (message : List (BitVec 8)) : String :=
  String.join ((digest message).map BitVec.toHex)

example : digest [0x61, 0x62, 0x63] =
    [0xba7816bf, 0x8f01cfea, 0x414140de, 0x5dae2223, 0xb00361a3, 0x96177a9c, 0xb410ff61,
     0xf20015ad] := by decide +kernel

end Codec.Sha256
