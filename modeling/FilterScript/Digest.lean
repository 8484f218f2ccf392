import FilterScript.Number.Power

/-
Fingerprints of texts.

`Digest.ofString` is the SHA-256 digest of the UTF-8 bytes of a text, in hexadecimal.  Runs are
compared by it, so it is computed here from its definition: padding to whole blocks, a schedule of
sixty-four words for each block, and the compression of a block into eight words.
-/
namespace FilterScript.Digest

/-- Eight words: what has been digested so far. -/
structure State where
  a : UInt32
  b : UInt32
  c : UInt32
  d : UInt32
  e : UInt32
  f : UInt32
  g : UInt32
  h : UInt32
deriving DecidableEq

/-- The state before the first block. -/
def start : State :=
  ⟨0x6a09e667, 0xbb67ae85, 0x3c6ef372, 0xa54ff53a, 0x510e527f, 0x9b05688c, 0x1f83d9ab, 0x5be0cd19⟩

/-- One constant for each round. -/
def constants : List UInt32 :=
  [0x428a2f98, 0x71374491, 0xb5c0fbcf, 0xe9b5dba5, 0x3956c25b, 0x59f111f1, 0x923f82a4, 0xab1c5ed5,
   0xd807aa98, 0x12835b01, 0x243185be, 0x550c7dc3, 0x72be5d74, 0x80deb1fe, 0x9bdc06a7, 0xc19bf174,
   0xe49b69c1, 0xefbe4786, 0x0fc19dc6, 0x240ca1cc, 0x2de92c6f, 0x4a7484aa, 0x5cb0a9dc, 0x76f988da,
   0x983e5152, 0xa831c66d, 0xb00327c8, 0xbf597fc7, 0xc6e00bf3, 0xd5a79147, 0x06ca6351, 0x14292967,
   0x27b70a85, 0x2e1b2138, 0x4d2c6dfc, 0x53380d13, 0x650a7354, 0x766a0abb, 0x81c2c92e, 0x92722c85,
   0xa2bfe8a1, 0xa81a664b, 0xc24b8b70, 0xc76c51a3, 0xd192e819, 0xd6990624, 0xf40e3585, 0x106aa070,
   0x19a4c116, 0x1e376c08, 0x2748774c, 0x34b0bcb5, 0x391c0cb3, 0x4ed8aa4a, 0x5b9cca4f, 0x682e6ff3,
   0x748f82ee, 0x78a5636f, 0x84c87814, 0x8cc70208, 0x90befffa, 0xa4506ceb, 0xbef9a3f7, 0xc67178f2]

private def rotateRight (x : UInt32) (n : UInt32) : UInt32 := (x >>> n) ||| (x <<< (32 - n))

/-- The next word of a schedule, from the last sixteen with the newest first. -/
private def nextWord (w2 w7 w15 w16 : UInt32) : UInt32 :=
  let s0 := rotateRight w15 7 ^^^ rotateRight w15 18 ^^^ (w15 >>> 3)
  let s1 := rotateRight w2 17 ^^^ rotateRight w2 19 ^^^ (w2 >>> 10)
  w16 + s0 + w7 + s1

private def extend : Nat → Array UInt32 → Array UInt32
  | 0, w => w
  | k + 1, w =>
    let n := w.size
    extend k (w.push (nextWord (w.getD (n - 2) 0) (w.getD (n - 7) 0) (w.getD (n - 15) 0)
      (w.getD (n - 16) 0)))

/-- The sixty-four words of a block of sixteen. -/
def schedule (block : Array UInt32) : Array UInt32 := extend 48 block

/-- One round. -/
def State.round (s : State) (k w : UInt32) : State :=
  let s1 := rotateRight s.e 6 ^^^ rotateRight s.e 11 ^^^ rotateRight s.e 25
  let choice := (s.e &&& s.f) ^^^ ((s.e ^^^ 0xffffffff) &&& s.g)
  let t1 := s.h + s1 + choice + k + w
  let s0 := rotateRight s.a 2 ^^^ rotateRight s.a 13 ^^^ rotateRight s.a 22
  let majority := (s.a &&& s.b) ^^^ (s.a &&& s.c) ^^^ (s.b &&& s.c)
  ⟨t1 + s0 + majority, s.a, s.b, s.c, s.d + t1, s.e, s.f, s.g⟩

private def State.sum (s t : State) : State :=
  ⟨s.a + t.a, s.b + t.b, s.c + t.c, s.d + t.d, s.e + t.e, s.f + t.f, s.g + t.g, s.h + t.h⟩

private def rounds (w : Array UInt32) : List UInt32 → Nat → State → State
  | [], _, s => s
  | k :: ks, i, s => rounds w ks (i + 1) (s.round k (w.getD i 0))

/-- Takes one block of sixteen words into the state. -/
def State.compress (s : State) (block : Array UInt32) : State :=
  s.sum (rounds (schedule block) constants 0 s)

/-- The bytes of a text behind which one bit, zeros and the length stand, in whole blocks. -/
def pad (bytes : ByteArray) : ByteArray :=
  let n := bytes.size
  let zeros := (119 - n % 64) % 64
  let lengthBytes := (List.range 8).map fun i => UInt8.ofNat (8 * n / 256 ^ (7 - i))
  let tail := (0x80 : UInt8) :: List.replicate zeros 0 ++ lengthBytes
  tail.foldl ByteArray.push bytes

private def byte (bytes : ByteArray) (i : Nat) : UInt32 :=
  if h : i < bytes.size then bytes[i].toUInt32 else 0

/-- Word `i` of a text, its first byte the highest. -/
def word (bytes : ByteArray) (i : Nat) : UInt32 :=
  (byte bytes (4 * i) <<< 24) ||| (byte bytes (4 * i + 1) <<< 16)
    ||| (byte bytes (4 * i + 2) <<< 8) ||| byte bytes (4 * i + 3)

private def blocks (bytes : ByteArray) : Nat → Nat → State → State
  | 0, _, s => s
  | k + 1, i, s =>
    let block := (List.range 16).foldl (fun (b : Array UInt32) j => b.push (word bytes (16 * i + j)))
      (Array.emptyWithCapacity 16)
    blocks bytes k (i + 1) (s.compress block)

/-- The digest of a sequence of bytes. -/
def ofBytes (bytes : ByteArray) : State :=
  let padded := pad bytes
  blocks padded (padded.size / 64) 0 start

private def hexDigits (w : UInt32) : List Char :=
  let ds := Nat.toDigits 16 w.toNat
  List.replicate (8 - ds.length) '0' ++ ds

/-- The digest in hexadecimal. -/
def State.hex (s : State) : String :=
  String.ofList ([s.a, s.b, s.c, s.d, s.e, s.f, s.g, s.h].flatMap hexDigits)

/-- The hexadecimal digest of the UTF-8 bytes of a text. -/
def ofString (s : String) : String := (ofBytes s.toUTF8).hex

end FilterScript.Digest
