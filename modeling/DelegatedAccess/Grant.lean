import DelegatedAccess.Rule.Encoding

/-!
# Grants

A grant lets its holder exercise a role on a resource, always or only when a rule sequence
passes. It is stored as a byte 0, or as a byte 1 followed by the reference to the sequence.
Any other byte string is no grant.
-/

namespace DelegatedAccess

/-- What the holder of a permission has been given. -/
inductive Grant where
  /-- The permission without conditions. -/
  | unconditional
  /-- The permission when a stored rule sequence passes. -/
  | conditional (rules : RuleRef)
deriving DecidableEq, Repr

namespace Grant

/-- The grant under the rule sequence referred to, or without conditions. -/
def ofRef : Option RuleRef → Grant
  | none => unconditional
  | some r => conditional r

/-- The reference to the rule sequence of a grant. -/
def ref? : Grant → Option RuleRef
  | unconditional => none
  | conditional r => some r

/-- The stored form of a grant. -/
def encode : Grant → Bytes
  | unconditional => [0]
  | conditional r => 1 :: r.bytes

/-- The grant with a given stored form. -/
def decode? : Bytes → Option Grant
  | [0] => some unconditional
  | 1 :: bs => (RuleRef.ofBytes? bs).map conditional
  | _ => none

end Grant

end DelegatedAccess
