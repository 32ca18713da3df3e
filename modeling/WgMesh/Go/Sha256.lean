/-
This file models `crypto/sha256`: the padding of a message to whole blocks, the
message schedule, the compression of one block and the digest. Words are 32-bit
and every operation wraps. The digest is a computable function of the message,
so identities derived from it can be evaluated; the one general fact used
elsewhere is its length.
-/

import WgMesh.Go.Text

namespace Go

/-- The round constants. -/
def roundConstants : List UInt32 :=
  [0x428a2f98, 0x71374491, 0xb5c0fbcf, 0xe9b5dba5, 0x3956c25b, 0x59f111f1, 0x923f82a4, 0xab1c5ed5,
   0xd807aa98, 0x12835b01, 0x243185be, 0x550c7dc3, 0x72be5d74, 0x80deb1fe, 0x9bdc06a7, 0xc19bf174,
   0xe49b69c1, 0xefbe4786, 0x0fc19dc6, 0x240ca1cc, 0x2de92c6f, 0x4a7484aa, 0x5cb0a9dc, 0x76f988da,
   0x983e5152, 0xa831c66d, 0xb00327c8, 0xbf597fc7, 0xc6e00bf3, 0xd5a79147, 0x06ca6351, 0x14292967,
   0x27b70a85, 0x2e1b2138, 0x4d2c6dfc, 0x53380d13, 0x650a7354, 0x766a0abb, 0x81c2c92e, 0x92722c85,
   0xa2bfe8a1, 0xa81a664b, 0xc24b8b70, 0xc76c51a3, 0xd192e819, 0xd6990624, 0xf40e3585, 0x106aa070,
   0x19a4c116, 0x1e376c08, 0x2748774c, 0x34b0bcb5, 0x391c0cb3, 0x4ed8aa4a, 0x5b9cca4f, 0x682e6ff3,
   0x748f82ee, 0x78a5636f, 0x84c87814, 0x8cc70208, 0x90befffa, 0xa4506ceb, 0xbef9a3f7, 0xc67178f2]

/-- The eight working words. -/
structure HashState where
  a : UInt32
  b : UInt32
  c : UInt32
  d : UInt32
  e : UInt32
  f : UInt32
  g : UInt32
  h : UInt32

/-- The words a hash starts from. -/
def initialHash : HashState where
  a := 0x6a09e667
  b := 0xbb67ae85
  c := 0x3c6ef372
  d := 0xa54ff53a
  e := 0x510e527f
  f := 0x9b05688c
  g := 0x1f83d9ab
  h := 0x5be0cd19

def rotateRight (word count : UInt32) : UInt32 :=
  (word >>> count) ||| (word <<< (32 - count))

/-- One round: the round constant and the schedule word are mixed into the state. -/
def hashRound (state : HashState) (constant word : UInt32) : HashState :=
  let sum1 := rotateRight state.e 6 ^^^ rotateRight state.e 11 ^^^ rotateRight state.e 25
  let choice := (state.e &&& state.f) ^^^ (~~~state.e &&& state.g)
  let temporary1 := state.h + sum1 + choice + constant + word
  let sum0 := rotateRight state.a 2 ^^^ rotateRight state.a 13 ^^^ rotateRight state.a 22
  let majority := (state.a &&& state.b) ^^^ (state.a &&& state.c) ^^^ (state.b &&& state.c)
  { a := temporary1 + (sum0 + majority)
    b := state.a
    c := state.b
    d := state.c
    e := state.d + temporary1
    f := state.e
    g := state.f
    h := state.g }

/-- The big-endian words of a block. -/
def blockWords : List UInt8 → List UInt32
  | first :: second :: third :: fourth :: rest =>
    ((UInt32.ofNat first.toNat <<< 24) ||| (UInt32.ofNat second.toNat <<< 16) |||
      (UInt32.ofNat third.toNat <<< 8) ||| UInt32.ofNat fourth.toNat) :: blockWords rest
  | _ => []

/-- Extend a schedule, held with its newest word first, by `count` words. -/
def extendSchedule : Nat → List UInt32 → List UInt32
  | 0, words => words
  | count + 1, words =>
    let word15 := words.getD 14 0
    let word2 := words.getD 1 0
    let sigma0 := rotateRight word15 7 ^^^ rotateRight word15 18 ^^^ (word15 >>> 3)
    let sigma1 := rotateRight word2 17 ^^^ rotateRight word2 19 ^^^ (word2 >>> 10)
    extendSchedule count ((words.getD 15 0 + sigma0 + words.getD 6 0 + sigma1) :: words)

/-- Compress one block of 64 bytes into the state. -/
def compress (state : HashState) (block : List UInt8) : HashState :=
  let schedule := (extendSchedule 48 (blockWords block).reverse).reverse
  let mixed := (roundConstants.zip schedule).foldl
    (fun current pair => hashRound current pair.1 pair.2) state
  { a := state.a + mixed.a
    b := state.b + mixed.b
    c := state.c + mixed.c
    d := state.d + mixed.d
    e := state.e + mixed.e
    f := state.f + mixed.f
    g := state.g + mixed.g
    h := state.h + mixed.h }

/-- The message followed by a one bit, zeros and its length in bits, in whole blocks. -/
def padMessage (message : List UInt8) : List UInt8 :=
  message ++ [0x80] ++ List.replicate ((119 - message.length % 64) % 64) 0 ++
    (List.range 8).map fun index => UInt8.ofNat (message.length * 8 / 256 ^ (7 - index))

/-- Compress `count` blocks in turn. -/
def compressBlocks : Nat → List UInt8 → HashState → HashState
  | 0, _, state => state
  | count + 1, message, state =>
    compressBlocks count (message.drop 64) (compress state (message.take 64))

def wordBytes (word : UInt32) : List UInt8 :=
  [UInt8.ofNat (word >>> 24).toNat, UInt8.ofNat (word >>> 16).toNat,
    UInt8.ofNat (word >>> 8).toNat, UInt8.ofNat word.toNat]

/-- `sha256.Sum256`. -/
def sha256 (message : List UInt8) : List UInt8 :=
  let padded := padMessage message
  let state := compressBlocks (padded.length / 64) padded initialHash
  wordBytes state.a ++ wordBytes state.b ++ wordBytes state.c ++ wordBytes state.d ++
    wordBytes state.e ++ wordBytes state.f ++ wordBytes state.g ++ wordBytes state.h

theorem sha256_length (message : List UInt8) : (sha256 message).length = 32 := rfl

example : (sha256 (text "abc")).take 4 = [0xba, 0x78, 0x16, 0xbf] := by decide +kernel

end Go
