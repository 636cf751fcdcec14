/-!
# Byte strings

Byte strings, and the big-endian form of a natural number in a fixed number of bytes.
-/

namespace DelegatedAccess

/-- A byte string. -/
abbrev Bytes := List UInt8

/-- The bytes of a text in UTF-8. -/
def utf8 (text : String) : Bytes :=
  text.toUTF8.data.toList

namespace BigEndian

/-- The `w` low bytes of a number, most significant first. -/
def encode : Nat → Nat → Bytes
  | 0, _ => []
  | w + 1, n => UInt8.ofNat (n >>> (8 * w)) :: encode w n

/-- The number a byte string reads as, most significant byte first. -/
def decode (bs : Bytes) : Nat :=
  bs.foldl (fun n b => n * 256 + b.toNat) 0

/-- The form in `w` bytes has `w` bytes. -/
@[simp] theorem length_encode (w n : Nat) :
  (encode w n).length = w
  := by
  induction w with
  | zero => rfl
  | succ w ih => rw [encode, List.length_cons, ih]

end BigEndian

end DelegatedAccess
