import DelegatedAccess.Store.Basic

/-!
# Stored grants are read back

A grant is read back from its stored form, and only from that: every other byte string, however
close, is read as no grant. A grant under a rule sequence refers to the sequence, except that the
empty sequence is no condition.

The main result of this module is that grants and the byte strings of their format are stored forms
of each other, one to one, so that a grant is looked up in a store exactly where its stored form is
kept.
-/

namespace DelegatedAccess

namespace RuleRef

/-- A reference is read back from its bytes, and from no other byte string. -/
theorem ofBytes?_eq_some_iff {bs : Bytes} {r : RuleRef} :
  ofBytes? bs = some r ↔ bs = r.bytes
  := by
  rw [ofBytes?, Option.map_eq_some_iff]
  constructor
  · rintro ⟨d, hd, rfl⟩
    exact Digest.ofBytes?_eq_some_iff.mp hd
  · intro h
    exact ⟨r.digest, Digest.ofBytes?_eq_some_iff.mpr h, rfl⟩

/-- A reference is read back from its bytes. -/
@[simp] theorem ofBytes?_bytes (r : RuleRef) :
  ofBytes? r.bytes = some r
  := ofBytes?_eq_some_iff.mpr rfl

/-- Different references have different bytes. -/
theorem bytes_injective {r r' : RuleRef} (h : r.bytes = r'.bytes) :
  r = r'
  := by
  apply Option.some.inj
  rw [← ofBytes?_bytes r, h, ofBytes?_bytes]

/-- Any 32 bytes are those of a reference. -/
theorem exists_eq_bytes_iff {bs : Bytes} :
  (∃ r : RuleRef, bs = r.bytes) ↔ bs.length = 32
  := by
  constructor
  · rintro ⟨r, rfl⟩
    exact r.digest.length_bytes
  · intro h
    have hread : Digest.ofBytes? bs = some ⟨bs.toArray, by simpa using h⟩ := dif_pos h
    exact ⟨⟨_⟩, Digest.ofBytes?_eq_some_iff.mp hread⟩

end RuleRef

namespace Grant

/-- A grant is read back from its stored form. -/
@[simp] theorem decode?_encode (g : Grant) :
  decode? g.encode = some g
  := by
  cases g with
  | unconditional => rfl
  | conditional r =>
      rw [encode, decode?, RuleRef.ofBytes?_bytes]
      rfl

/-- A grant is read only from its stored form. -/
theorem decode?_eq_some_iff {bs : Bytes} {g : Grant} :
  decode? bs = some g ↔ bs = g.encode
  := by
  constructor
  · intro h
    unfold decode? at h
    split at h
    · obtain rfl := Option.some.inj h
      rfl
    · obtain ⟨r, hr, rfl⟩ := Option.map_eq_some_iff.mp h
      obtain rfl := RuleRef.ofBytes?_eq_some_iff.mp hr
      rfl
    · contradiction
  · rintro rfl
    apply decode?_encode

/-- Different grants have different stored forms. -/
theorem encode_injective {g g' : Grant} (h : g.encode = g'.encode) :
  g = g'
  := by
  apply Option.some.inj
  rw [← decode?_encode g, h, decode?_encode]

/-- The stored forms of grants are the byte 0, and the byte 1 with 32 bytes after it. -/
theorem exists_eq_encode_iff {bs : Bytes} :
  (∃ g : Grant, bs = g.encode) ↔ bs = [0] ∨ ∃ ref : Bytes, ref.length = 32 ∧ bs = 1 :: ref
  := by
  constructor
  · rintro ⟨g, rfl⟩
    cases g with
    | unconditional => exact .inl rfl
    | conditional r => exact .inr ⟨r.bytes, r.digest.length_bytes, rfl⟩
  · rintro (rfl | ⟨ref, hlength, rfl⟩)
    · exact ⟨unconditional, rfl⟩
    · obtain ⟨r, rfl⟩ := RuleRef.exists_eq_bytes_iff.mpr hlength
      exact ⟨conditional r, rfl⟩

/-- A byte string that is no stored form is read as no grant. -/
theorem decode?_eq_none_iff {bs : Bytes} :
  decode? bs = none ↔ bs ≠ [0] ∧ ∀ ref : Bytes, ref.length = 32 → bs ≠ 1 :: ref
  := by
  have hnone : decode? bs = none ↔ ¬ ∃ g : Grant, bs = g.encode := by
    simp only [Option.eq_none_iff_forall_ne_some, ne_eq, decode?_eq_some_iff, not_exists]
  rw [hnone, exists_eq_encode_iff, not_or, not_exists]
  simp only [not_and, ne_eq]

/-- The grant under a rule sequence. -/
def under (rules : List Rule) : Grant :=
  if rules = [] then unconditional else conditional (RuleRef.of rules)

end Grant

/-- A grant is looked up where its stored form is kept. -/
theorem Store.grant?_eq_some_iff (s : Store) {p : Pair} {e : Entity} {g : Grant} :
  s.grant? p e = some g ↔ s.grants.get? (p.grantKey e) = some g.encode
  := by
  rw [grant?, Option.bind_eq_some_iff]
  simp only [Grant.decode?_eq_some_iff, exists_eq_right]

/-- A grant is read back from its stored form and from nothing else. The grant without conditions is
stored as the byte 0 and a grant under rules as the byte 1 with the 32 bytes of the reference after
it, so that every other byte string is read as no grant, and different grants have different stored
forms. In a store a grant is looked up exactly where its stored form is kept, and none where no
stored form is kept. -/
theorem Grant.encode_exact (g g' : Grant) (bs : Bytes) :
  decode? g.encode = some g ∧
    (decode? bs = some g ↔ bs = g.encode) ∧
    (decode? bs = some unconditional ↔ bs = [0]) ∧
    (∀ r : RuleRef, decode? bs = some (conditional r) ↔ bs = 1 :: r.bytes) ∧
    ((∃ read, decode? bs = some read) ↔
      bs = [0] ∨ ∃ ref : Bytes, ref.length = 32 ∧ bs = 1 :: ref) ∧
    (decode? bs = none ↔ bs ≠ [0] ∧ ∀ ref : Bytes, ref.length = 32 → bs ≠ 1 :: ref) ∧
    (g.encode = g'.encode ↔ g = g') ∧
    ∀ (s : Store) (p : Pair) (e : Entity),
      (s.grant? p e = some g ↔ s.grants.get? (p.grantKey e) = some g.encode) ∧
      (s.grant? p e = none ↔ ∀ kept : Grant, s.grants.get? (p.grantKey e) ≠ some kept.encode)
  := by
  refine ⟨decode?_encode g, decode?_eq_some_iff, decode?_eq_some_iff,
    fun r => decode?_eq_some_iff, ?_, decode?_eq_none_iff, ⟨encode_injective, congrArg encode⟩, ?_⟩
  · simp only [decode?_eq_some_iff, exists_eq_encode_iff]
  · intro s p e
    refine ⟨s.grant?_eq_some_iff, ?_⟩
    simp only [Option.eq_none_iff_forall_ne_some, ne_eq, s.grant?_eq_some_iff]

/-- Nothing, one byte too many, bytes that are missing and another first byte are no grants. -/
example :
  Grant.decode? [] = none ∧ Grant.decode? [0, 1] = none ∧ Grant.decode? [1, 1, 2] = none ∧
    Grant.decode? [9] = none
  := by
  decide

end DelegatedAccess
