import DelegatedAccess.Rule.Basic
import DelegatedAccess.Hex
import DelegatedAccess.Sha256

/-!
# The stored form of rules

A rule is stored in 18 bytes: its selector, its operator code and its value, most
significant byte first. A sequence is stored as the forms of its rules one after another,
and referred to by the SHA-256 digest of that string.
-/

namespace DelegatedAccess

namespace Rule

/-- The number of bytes of a stored rule. -/
def encodedLength : Nat := 18

/-- The stored form of a rule. -/
def encode (r : Rule) : Bytes :=
  r.selector :: r.code :: BigEndian.encode 16 r.value.toNat

/-- The rule with a given stored form. Bytes that are missing count as zero. -/
def decode (bs : Bytes) : Rule :=
  ⟨bs.headD 0, bs.tail.headD 0, BitVec.ofNat 128 (BigEndian.decode (bs.drop 2))⟩

/-- The stored form of a sequence. -/
def encodeAll (rules : List Rule) : Bytes :=
  rules.flatMap encode

/-- The first `n` rules of a stored sequence. -/
def decodeFirst : Nat → Bytes → List Rule
  | 0, _ => []
  | n + 1, bs => decode (bs.take encodedLength) :: decodeFirst n (bs.drop encodedLength)

/-- The sequence with a given stored form, if it is a whole number of rules. -/
def decodeAll? (bs : Bytes) : Option (List Rule) :=
  if bs.length % encodedLength = 0 then some (decodeFirst (bs.length / encodedLength) bs)
  else none

end Rule

/-- The reference to a stored rule sequence: the digest of its stored form. -/
structure RuleRef where
  digest : Digest
deriving DecidableEq

namespace RuleRef

/-- The reference to the sequence with a given stored form. -/
def ofEncoded (bs : Bytes) : RuleRef :=
  ⟨Sha256.hash bs⟩

/-- The reference to a sequence. -/
def of (rules : List Rule) : RuleRef :=
  ofEncoded (Rule.encodeAll rules)

/-- The reference with given bytes, if there are 32 of them. -/
def ofBytes? (bs : Bytes) : Option RuleRef :=
  (Digest.ofBytes? bs).map RuleRef.mk

/-- The bytes of a reference. -/
def bytes (r : RuleRef) : Bytes :=
  r.digest.bytes

/-- A reference, written as `0x` and 64 lower-case hexadecimal digits. -/
def hex (r : RuleRef) : String :=
  "0x" ++ Hex.ofBytes r.bytes

instance : ToString RuleRef where
  toString := hex

instance : Repr RuleRef where
  reprPrec r _ := "RuleRef(" ++ r.hex ++ ")"

end RuleRef

end DelegatedAccess
