import DelegatedAccess.Bytes.Lemmas
import DelegatedAccess.Store.Key
import Mathlib.Data.Prod.Lex

/-!
# Keys determine what they are keys of

An entity is read back from its eight bytes. The key of a pair determines the pair, and the
key of a grant determines the pair and the entity. The key of a pair begins the keys of its
own grants and those of no other pair, and these come in the order of their entities.

The main result of this module is that the keys of grants are ordered like roles, resources and
entities in turn, and that the strings of 48 bytes that the key of a pair begins are the keys of
the grants of that pair.
-/

namespace DelegatedAccess

namespace Entity

/-- An entity is written in eight bytes. -/
@[simp] theorem length_bytes (e : Entity) :
  e.bytes.length = 8
  := BigEndian.length_encode 8 e.toNat

/-- The bytes of an entity read as its number. -/
theorem decode_bytes (e : Entity) :
  BigEndian.decode e.bytes = e.toNat
  := by
  rw [bytes, BigEndian.decode_encode]
  exact Nat.mod_eq_of_lt e.id.toNat_lt

/-- An entity is read back from its bytes. -/
@[simp] theorem ofBytes_bytes (e : Entity) :
  ofBytes e.bytes = e
  := by
  rw [ofBytes, decode_bytes, toNat, UInt64.ofNat_toNat]

/-- Eight bytes are those of the entity they stand for. -/
theorem bytes_ofBytes {bs : Bytes} (h : bs.length = 8) :
  (ofBytes bs).bytes = bs
  := by
  have hlt : BigEndian.decode bs < UInt64.size := by
    have hbound := BigEndian.decode_lt bs
    rwa [h] at hbound
  rw [bytes, ofBytes, toNat, UInt64.toNat_ofNat_of_lt' hlt, ← h, BigEndian.encode_decode]

/-- Entities are ordered like their bytes. -/
theorem bytes_lt_bytes_iff {e f : Entity} :
  e.bytes < f.bytes ↔ e.toNat < f.toNat
  := by
  rw [← decode_bytes e, ← decode_bytes f, BigEndian.decode_lt_decode_iff (by simp)]

/-- Different entities have different bytes. -/
theorem bytes_injective {e f : Entity} (h : e.bytes = f.bytes) :
  e = f
  := by
  rw [← ofBytes_bytes e, h, ofBytes_bytes]

end Entity

/-- Different digests have different bytes. -/
theorem Digest.bytes_injective {d d' : Digest} (h : d.bytes = d'.bytes) :
  d = d'
  := Vector.toList_inj.mp h

namespace Pair

/-- The key of a pair has 40 bytes. -/
@[simp] theorem length_key (p : Pair) :
  p.key.length = 40
  := by
  simp [key]

/-- The key of a grant has 48 bytes. -/
@[simp] theorem length_grantKey (p : Pair) (e : Entity) :
  (p.grantKey e).length = 48
  := by
  simp [grantKey]

/-- Different pairs have different keys. -/
theorem key_injective {p q : Pair} (h : p.key = q.key) :
  p = q
  := by
  obtain ⟨⟨d⟩, r⟩ := p
  obtain ⟨⟨d'⟩, r'⟩ := q
  obtain ⟨hd, hr⟩ := List.append_inj h (by simp)
  obtain rfl := Digest.bytes_injective hd
  obtain rfl := Entity.bytes_injective hr
  rfl

/-- The key of a pair begins the keys of the grants of that pair alone. -/
theorem key_isPrefixOf_grantKey_iff {p q : Pair} {e : Entity} :
  p.key.isPrefixOf (q.grantKey e) = true ↔ p = q
  := by
  rw [List.isPrefixOf_iff_prefix, grantKey]
  constructor
  · intro h
    have hlen : p.key.length = q.key.length := by simp
    have hpq : p.key <+: q.key :=
      List.prefix_of_prefix_length_le h (List.prefix_append _ _) (Nat.le_of_eq hlen)
    apply key_injective (hpq.eq_of_length hlen)
  · rintro rfl
    apply List.prefix_append

/-- Grants to different entities, or of different pairs, have different keys. -/
theorem grantKey_injective {p q : Pair} {e f : Entity} (h : p.grantKey e = q.grantKey f) :
  p = q ∧ e = f
  := by
  obtain ⟨hp, he⟩ := List.append_inj h (by simp)
  exact ⟨key_injective hp, Entity.bytes_injective he⟩

/-- Two pairs have one key when they have the same role and the same resource. -/
theorem key_eq_key_iff {p q : Pair} :
  p.key = q.key ↔
    p.role.digest.bytes = q.role.digest.bytes ∧ p.resource.toNat = q.resource.toNat
  := by
  constructor
  · intro h
    obtain rfl := key_injective h
    exact ⟨rfl, rfl⟩
  · rintro ⟨hrole, hresource⟩
    rw [key, key, hrole, Entity.bytes, Entity.bytes, hresource]

/-- Pairs are ordered by their roles, and those of one role by their resources. -/
theorem key_lt_key_iff {p q : Pair} :
  p.key < q.key ↔
    p.role.digest.bytes < q.role.digest.bytes ∨
      p.role.digest.bytes = q.role.digest.bytes ∧ p.resource.toNat < q.resource.toNat
  := by
  rw [key, key, Bytes.append_lt_append_iff (by simp), Entity.bytes_lt_bytes_iff]

/-- Grants are ordered by their pairs, and those of one pair by their entities. -/
theorem grantKey_lt_grantKey_iff {p q : Pair} {e f : Entity} :
  p.grantKey e < q.grantKey f ↔ p.key < q.key ∨ p.key = q.key ∧ e.toNat < f.toNat
  := by
  rw [grantKey, grantKey, Bytes.append_lt_append_iff (by simp), Entity.bytes_lt_bytes_iff]

/-- The grants of a pair are in the order of their entities. -/
theorem lt_of_grantKey_lt {p : Pair} {e f : Entity} (h : p.grantKey e < p.grantKey f) :
  e.toNat < f.toNat
  := by
  rcases grantKey_lt_grantKey_iff.mp h with hlt | ⟨_, hlt⟩
  · exact absurd hlt (List.lt_irrefl p.key)
  · exact hlt

end Pair

/-- The entity of a grant is read back from its key. -/
@[simp] theorem Entity.ofGrantKey?_grantKey (p : Pair) (e : Entity) :
  Entity.ofGrantKey? (p.grantKey e) = some e
  := by
  rw [Entity.ofGrantKey?, if_pos (p.length_grantKey e), Pair.grantKey,
    List.drop_left' p.length_key, Entity.ofBytes_bytes]

/-- Among the keys that the key of a pair begins, an entity is read from that of its grant alone. -/
theorem Entity.ofGrantKey?_eq_some_iff {p : Pair} {k : Bytes} (h : p.key.isPrefixOf k = true)
    (e : Entity) :
  Entity.ofGrantKey? k = some e ↔ k = p.grantKey e
  := by
  constructor
  · intro hread
    obtain ⟨rest, rfl⟩ := List.isPrefixOf_iff_prefix.mp h
    rw [ofGrantKey?] at hread
    split at hread
    next hlength =>
      have hrest : rest.length = 8 := by
        rw [List.length_append, p.length_key] at hlength
        omega
      rw [List.drop_left' p.length_key] at hread
      obtain rfl := Option.some.inj hread
      rw [Pair.grantKey, bytes_ofBytes hrest]
    next => contradiction
  · rintro rfl
    apply ofGrantKey?_grantKey

namespace Pair

/-- The keys of the grants of a pair are those of 48 bytes that the key of the pair begins. -/
theorem exists_eq_grantKey_iff {p : Pair} {k : Bytes} :
  (∃ e, k = p.grantKey e) ↔ k.length = 48 ∧ p.key.isPrefixOf k = true
  := by
  constructor
  · rintro ⟨e, rfl⟩
    exact ⟨p.length_grantKey e, Pair.key_isPrefixOf_grantKey_iff.mpr rfl⟩
  · rintro ⟨hlength, hbegin⟩
    refine ⟨Entity.ofBytes (k.drop 40), ?_⟩
    apply (Entity.ofGrantKey?_eq_some_iff hbegin _).mp
    rw [Entity.ofGrantKey?, if_pos hlength]

/-- Keys of grants are ordered like the role, the resource and the entity, compared in turn. The
key of a grant determines all three, and the key of a pair the first two. The key of a pair begins
the keys of its own grants alone. The entity is read back from the key of a grant, and any string
of 48 bytes that the key of a pair begins is the key of the grant to the entity read from it. -/
theorem grantKey_exact (p q : Pair) (e f : Entity) (k : Bytes) :
  (p.grantKey e < q.grantKey f ↔
      toLex (p.role.digest.bytes, toLex (p.resource.toNat, e.toNat)) <
        toLex (q.role.digest.bytes, toLex (q.resource.toNat, f.toNat))) ∧
    (p.grantKey e = q.grantKey f ↔ p = q ∧ e = f) ∧
    (p.key = q.key ↔ p = q) ∧
    (p.key.isPrefixOf (q.grantKey f) = true ↔ p = q) ∧
    Entity.ofGrantKey? (p.grantKey e) = some e ∧
    (k.length = 48 ∧ p.key.isPrefixOf k = true ↔
      ∃ g, Entity.ofGrantKey? k = some g ∧ k = p.grantKey g)
  := by
  refine ⟨?_, ⟨grantKey_injective, ?_⟩, ⟨key_injective, congrArg key⟩, key_isPrefixOf_grantKey_iff,
    Entity.ofGrantKey?_grantKey p e, ?_⟩
  · rw [grantKey_lt_grantKey_iff, key_lt_key_iff, key_eq_key_iff, Prod.Lex.toLex_lt_toLex,
      Prod.Lex.toLex_lt_toLex, and_or_left, or_assoc, and_assoc]
  · rintro ⟨rfl, rfl⟩
    rfl
  · rw [← exists_eq_grantKey_iff]
    constructor
    · rintro ⟨g, rfl⟩
      exact ⟨g, Entity.ofGrantKey?_grantKey p g, rfl⟩
    · rintro ⟨g, _, hk⟩
      exact ⟨g, hk⟩

end Pair

end DelegatedAccess
