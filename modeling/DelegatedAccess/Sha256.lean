import DelegatedAccess.Bytes

/-!
# SHA-256

The digest of a byte string under SHA-256. The widths of the blocks, of the message schedule
and of the chaining state are part of their types, so every digest has 32 bytes.
-/

namespace DelegatedAccess

/-- A string of 32 bytes. -/
abbrev Digest := Vector UInt8 32

namespace Digest

/-- The digest with the given bytes, if there are 32 of them. -/
def ofBytes? (bs : Bytes) : Option Digest :=
  if h : bs.length = 32 then some ⟨bs.toArray, by simpa using h⟩ else none

/-- The bytes of a digest. -/
def bytes (d : Digest) : Bytes :=
  d.toList

/-- A digest has 32 bytes. -/
@[simp] theorem length_bytes (d : Digest) :
  d.bytes.length = 32
  := by
  simp [bytes]

/-- A digest is read back from its bytes, and from no other byte string. -/
theorem ofBytes?_eq_some_iff {bs : Bytes} {d : Digest} :
  ofBytes? bs = some d ↔ bs = d.bytes
  := by
  constructor
  · intro h
    rw [ofBytes?] at h
    split at h
    · obtain rfl := Option.some.inj h
      rfl
    · contradiction
  · rintro rfl
    rw [ofBytes?, dif_pos (length_bytes d)]
    rfl

end Digest

namespace Sha256

/-- The first 32 bits of the fractional parts of the cube roots of the first 64 primes. -/
def roundConstants : Vector UInt32 64 := #v[
  0x428a2f98, 0x71374491, 0xb5c0fbcf, 0xe9b5dba5, 0x3956c25b, 0x59f111f1, 0x923f82a4, 0xab1c5ed5,
  0xd807aa98, 0x12835b01, 0x243185be, 0x550c7dc3, 0x72be5d74, 0x80deb1fe, 0x9bdc06a7, 0xc19bf174,
  0xe49b69c1, 0xefbe4786, 0x0fc19dc6, 0x240ca1cc, 0x2de92c6f, 0x4a7484aa, 0x5cb0a9dc, 0x76f988da,
  0x983e5152, 0xa831c66d, 0xb00327c8, 0xbf597fc7, 0xc6e00bf3, 0xd5a79147, 0x06ca6351, 0x14292967,
  0x27b70a85, 0x2e1b2138, 0x4d2c6dfc, 0x53380d13, 0x650a7354, 0x766a0abb, 0x81c2c92e, 0x92722c85,
  0xa2bfe8a1, 0xa81a664b, 0xc24b8b70, 0xc76c51a3, 0xd192e819, 0xd6990624, 0xf40e3585, 0x106aa070,
  0x19a4c116, 0x1e376c08, 0x2748774c, 0x34b0bcb5, 0x391c0cb3, 0x4ed8aa4a, 0x5b9cca4f, 0x682e6ff3,
  0x748f82ee, 0x78a5636f, 0x84c87814, 0x8cc70208, 0x90befffa, 0xa4506ceb, 0xbef9a3f7, 0xc67178f2]

/-- The chaining state: eight words. -/
structure State where
  a : UInt32
  b : UInt32
  c : UInt32
  d : UInt32
  e : UInt32
  f : UInt32
  g : UInt32
  h : UInt32

/-- The first 32 bits of the fractional parts of the square roots of the first 8 primes. -/
def initial : State :=
  ⟨0x6a09e667, 0xbb67ae85, 0x3c6ef372, 0xa54ff53a, 0x510e527f, 0x9b05688c, 0x1f83d9ab, 0x5be0cd19⟩

/-- Rotation to the right by `n` of the 32 places. -/
def rotate (x n : UInt32) : UInt32 :=
  (x >>> n) ||| (x <<< (32 - n))

/-- The number of zero bytes between the delimiter and the length. -/
def paddingZeros (size : Nat) : Nat :=
  (119 - size % 64) % 64

/-- The message, a delimiter, zeros, and the length in bits: a whole number of blocks. -/
def pad (message : Bytes) : Bytes :=
  message ++ 0x80 :: List.replicate (paddingZeros message.length) 0
    ++ BigEndian.encode 8 (8 * message.length)

/-- The word at a position of the padded message. -/
def word (padded : Array UInt8) (start : Nat) : UInt32 :=
  UInt32.ofNat (BigEndian.decode ((List.range 4).map fun i => padded[start + i]?.getD 0))

/-- The first `n` words of the message schedule of a block: the sixteen words of the block,
then words computed from those before them. -/
def scheduleUpTo (block : Vector UInt32 16) : (n : Nat) → Vector UInt32 n
  | 0 => #v[]
  | n + 1 =>
      let ws := scheduleUpTo block n
      if h : n < 16 then
        ws.push block[n]
      else
        let x := ws[n - 15]
        let y := ws[n - 2]
        let s := rotate x 7 ^^^ rotate x 18 ^^^ (x >>> 3)
        let t := rotate y 17 ^^^ rotate y 19 ^^^ (y >>> 10)
        ws.push (ws[n - 16] + s + ws[n - 7] + t)

/-- The message schedule of a block. -/
def schedule (block : Vector UInt32 16) : Vector UInt32 64 :=
  scheduleUpTo block 64

/-- One round of the compression with a round constant and a word of the schedule. -/
def round (s : State) (k w : UInt32) : State :=
  let s1 := rotate s.e 6 ^^^ rotate s.e 11 ^^^ rotate s.e 25
  let choice := (s.e &&& s.f) ^^^ (~~~s.e &&& s.g)
  let t1 := s.h + s1 + choice + k + w
  let s0 := rotate s.a 2 ^^^ rotate s.a 13 ^^^ rotate s.a 22
  let majority := (s.a &&& s.b) ^^^ (s.a &&& s.c) ^^^ (s.b &&& s.c)
  ⟨t1 + (s0 + majority), s.a, s.b, s.c, s.d + t1, s.e, s.f, s.g⟩

/-- The state after one more block. -/
def compress (s : State) (block : Vector UInt32 16) : State :=
  let r := (roundConstants.toList.zip (schedule block).toList).foldl
    (fun s kw => round s kw.1 kw.2) s
  ⟨s.a + r.a, s.b + r.b, s.c + r.c, s.d + r.d, s.e + r.e, s.f + r.f, s.g + r.g, s.h + r.h⟩

/-- The four bytes of a word, most significant first. -/
def wordBytes (w : UInt32) : Vector UInt8 4 :=
  #v[(w >>> 24).toUInt8, (w >>> 16).toUInt8, (w >>> 8).toUInt8, w.toUInt8]

/-- The digest a final state stands for: its words in order. -/
def State.digest (s : State) : Digest :=
  wordBytes s.a ++ wordBytes s.b ++ wordBytes s.c ++ wordBytes s.d
    ++ wordBytes s.e ++ wordBytes s.f ++ wordBytes s.g ++ wordBytes s.h

/-- The SHA-256 digest of a byte string. -/
def hash (message : Bytes) : Digest :=
  let padded := (pad message).toArray
  let blocks := (List.range (padded.size / 64)).map fun i =>
    (Vector.ofFn fun j : Fin 16 => word padded (64 * i + 4 * j))
  (blocks.foldl compress initial).digest

end Sha256

end DelegatedAccess
