import DelegatedAccess.Entity
import DelegatedAccess.Hex
import DelegatedAccess.Sha256

/-!
# Roles

A role is a category of privileged action, identified by a digest. It is written as `0x` and
64 hexadecimal digits, or derived from a name: any text that is not such a digest is taken
as a name, and its role is the SHA-256 digest of its bytes.

A role on a resource forms a pair, the unit that a manager controls.
-/

namespace DelegatedAccess

/-- A category of privileged action. -/
structure Role where
  /-- The digest that identifies the role. -/
  digest : Digest
deriving DecidableEq

namespace Role

/-- The role a name stands for. -/
def named (name : String) : Role :=
  ⟨Sha256.hash (utf8 name)⟩

/-- The role written as `0x` and 64 hexadecimal digits of either case. -/
def ofHex? (text : String) : Option Role :=
  match text.toList with
  | '0' :: 'x' :: digits => do
      let bs ← Hex.decode? digits
      let d ← Digest.ofBytes? bs
      return ⟨d⟩
  | _ => none

/-- The role a text stands for: the digest it writes, or else the role it names. -/
def parse (text : String) : Role :=
  (ofHex? text).getD (named text)

/-- The digest of a role, written as `0x` and 64 lower-case hexadecimal digits. -/
def hex (r : Role) : String :=
  "0x" ++ Hex.ofBytes r.digest.bytes

/-- How a message names a role: by the first four bytes of its digest. -/
def label (r : Role) : String :=
  "role:" ++ Hex.ofBytes (r.digest.bytes.take 4)

instance : ToString Role where
  toString := label

instance : Repr Role where
  reprPrec r _ := "Role(" ++ r.hex ++ ")"

/-- The role that lets its holders create pairs: the one named `CREATE_PERMISSIONS_ROLE`. -/
def createPermissions : Role := ⟨#v[
  0x3e, 0x61, 0x93, 0x4e, 0x53, 0x1f, 0x62, 0x8b, 0x30, 0x9b, 0x12, 0x21, 0xc2, 0xe3, 0x2a, 0x65,
  0x6c, 0xf2, 0x45, 0x30, 0xab, 0x28, 0xa7, 0xc5, 0xbd, 0x41, 0x84, 0x74, 0x11, 0x37, 0x18, 0x71]⟩

/-- The role that lets its holders create pairs has its name. -/
theorem named_eq_createPermissions :
  named "CREATE_PERMISSIONS_ROLE" = createPermissions
  := by
  decide +kernel

end Role

/-- A role on a resource, the unit that a manager controls. -/
structure Pair where
  role : Role
  resource : Resource
deriving DecidableEq, Repr

end DelegatedAccess
