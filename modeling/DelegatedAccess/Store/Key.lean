import DelegatedAccess.Role

/-!
# Keys

The keys under which a store keeps what it knows. A pair has a key of 40 bytes, the digest of
its role followed by its resource; a grant has the key of its pair followed by its entity.
Numbers are written most significant byte first, so the grants of a pair follow one another
in the order of their entities, and the key of the pair is where they begin.
-/

namespace DelegatedAccess

/-- The eight bytes of an entity, most significant first. -/
def Entity.bytes (e : Entity) : Bytes :=
  BigEndian.encode 8 e.toNat

/-- The entity that eight bytes stand for. -/
def Entity.ofBytes (bs : Bytes) : Entity :=
  ⟨UInt64.ofNat (BigEndian.decode bs)⟩

/-- The key of a pair. -/
def Pair.key (p : Pair) : Bytes :=
  p.role.digest.bytes ++ p.resource.bytes

/-- The key of the grant of a pair to an entity. -/
def Pair.grantKey (p : Pair) (e : Entity) : Bytes :=
  p.key ++ e.bytes

/-- The entity of the grant with a key, if the key has the length of one. -/
def Entity.ofGrantKey? (key : Bytes) : Option Entity :=
  if key.length = 48 then some (ofBytes (key.drop 40)) else none

end DelegatedAccess
