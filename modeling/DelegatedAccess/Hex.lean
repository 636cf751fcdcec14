import DelegatedAccess.Bytes

/-!
# Hexadecimal text

A byte is written as two hexadecimal digits, the high one first. Writing uses lower-case
digits; reading takes either case.
-/

namespace DelegatedAccess.Hex

/-- The digit for a number below sixteen. -/
def digit (n : Nat) : Char :=
  if n < 10 then Char.ofNat (48 + n) else Char.ofNat (87 + n)

/-- The number a digit stands for. -/
def value? (c : Char) : Option Nat :=
  if '0' ≤ c ∧ c ≤ '9' then some (c.toNat - 48)
  else if 'a' ≤ c ∧ c ≤ 'f' then some (c.toNat - 87)
  else if 'A' ≤ c ∧ c ≤ 'F' then some (c.toNat - 55)
  else none

/-- The digits of a byte string. -/
def encode : Bytes → List Char
  | [] => []
  | b :: bs => digit (b.toNat / 16) :: digit (b.toNat % 16) :: encode bs

/-- The byte string written by a sequence of digits, if it is one: an even number of digits
and nothing else. -/
def decode? : List Char → Option Bytes
  | [] => some []
  | [_] => none
  | hi :: lo :: rest => do
      let h ← value? hi
      let l ← value? lo
      let bs ← decode? rest
      return UInt8.ofNat (16 * h + l) :: bs

/-- The digits of a byte string, as a text. -/
def ofBytes (bs : Bytes) : String :=
  String.ofList (encode bs)

end DelegatedAccess.Hex
