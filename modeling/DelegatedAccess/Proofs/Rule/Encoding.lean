import DelegatedAccess.Bytes.Lemmas
import DelegatedAccess.Rule.Encoding

/-!
# Stored rule sequences are read back

A rule is read back from its stored form, and a sequence from the stored forms of its rules
one after another. Hence different sequences have different stored forms. Whatever can be read as
a sequence is the stored form of that sequence.

The main result of this module is that sequences and byte strings of whole numbers of rules are
stored forms of each other, one to one, so that only a collision of digests makes two sequences
share a reference.
-/

namespace DelegatedAccess

/-- Two byte strings collide when they are different and have one digest. -/
def Sha256.IsCollision (bs cs : Bytes) : Prop :=
  bs ≠ cs ∧ hash bs = hash cs

namespace Rule

/-- A rule is stored in 18 bytes. -/
@[simp] theorem length_encode (r : Rule) :
  r.encode.length = encodedLength
  := by
  rw [encode, List.length_cons, List.length_cons, BigEndian.length_encode]
  rfl

/-- A rule is read back from its stored form. -/
@[simp] theorem decode_encode (r : Rule) :
  decode r.encode = r
  := by
  have h : r.value.toNat % 256 ^ 16 = r.value.toNat := Nat.mod_eq_of_lt r.value.isLt
  rw [decode, encode, List.drop_succ_cons, List.drop_succ_cons, List.drop_zero,
    BigEndian.decode_encode, h, BitVec.ofNat_toNat, BitVec.setWidth_eq]
  rfl

/-- A sequence is stored in 18 bytes for each rule. -/
theorem length_encodeAll (rules : List Rule) :
  (encodeAll rules).length = rules.length * encodedLength
  := by
  induction rules with
  | nil => simp [encodeAll]
  | cons r rules ih =>
      rw [encodeAll, List.flatMap_cons, List.length_append, length_encode, ← encodeAll, ih,
        List.length_cons, Nat.succ_mul, Nat.add_comm]

/-- The bytes of a rule stand in the stored form of a sequence after those of the rules before
it. -/
theorem getElem?_encodeAll (rules : List Rule) (i : Nat) {k : Nat} (hk : k < encodedLength) :
  (encodeAll rules)[encodedLength * i + k]? = rules[i]?.bind fun r => r.encode[k]?
  := by
  induction rules generalizing i with
  | nil => rfl
  | cons r rules ih =>
      rw [encodeAll, List.flatMap_cons, ← encodeAll]
      cases i with
      | zero =>
          rw [Nat.mul_zero, Nat.zero_add, List.getElem?_append_left (by rwa [length_encode])]
          rfl
      | succ i =>
          have hplace : encodedLength * (i + 1) + k - r.encode.length = encodedLength * i + k := by
            rw [length_encode, Nat.mul_succ]
            omega
          have hle : r.encode.length ≤ encodedLength * (i + 1) + k := by
            rw [length_encode, Nat.mul_succ]
            omega
          rw [List.getElem?_append_right hle, hplace, ih]
          rfl

/-- The value of a rule stands in its last 16 bytes, the most significant one first. -/
theorem getElem?_encode_value (r : Rule) {k : Nat} (hk : k < 16) :
  r.encode[2 + k]? = some (UInt8.ofNat (r.value.toNat / 256 ^ (15 - k)))
  := by
  rw [encode, Nat.add_comm, List.getElem?_cons_succ, List.getElem?_cons_succ,
    BigEndian.getElem?_encode r.value.toNat hk]

/-- Where the selector, the code and the value of each rule stand in the stored form of a
sequence. -/
theorem layout_encodeAll (rules : List Rule) (i : Nat) :
  (encodeAll rules)[18 * i]? = rules[i]?.map selector ∧
    (encodeAll rules)[18 * i + 1]? = rules[i]?.map code ∧
    ∀ k : Fin 16, (encodeAll rules)[18 * i + (2 + k.val)]? =
      rules[i]?.map fun r => UInt8.ofNat (r.value.toNat / 256 ^ (15 - k.val))
  := by
  refine ⟨?_, ?_, ?_⟩
  · have hselector := getElem?_encodeAll rules i (show 0 < encodedLength by decide)
    rw [Nat.add_zero] at hselector
    rw [Option.map_eq_bind]
    exact hselector
  · rw [Option.map_eq_bind]
    exact getElem?_encodeAll rules i (show 1 < encodedLength by decide)
  · intro k
    have hlt : 2 + k.val < encodedLength := Nat.add_lt_add_left k.isLt 2
    change (encodeAll rules)[encodedLength * i + (2 + k.val)]? = _
    rw [getElem?_encodeAll rules i hlt, funext fun r => getElem?_encode_value r k.isLt,
      Option.map_eq_bind]
    rfl

/-- The rules of a sequence are read back from its stored form. -/
theorem decodeFirst_encodeAll (rules : List Rule) :
  decodeFirst rules.length (encodeAll rules) = rules
  := by
  induction rules with
  | nil => rfl
  | cons r rules ih =>
      rw [List.length_cons, decodeFirst, encodeAll, List.flatMap_cons,
        List.take_left' r.length_encode, List.drop_left' r.length_encode, ← encodeAll, ih,
        decode_encode]

/-- A sequence is read back from its stored form. -/
@[simp] theorem decodeAll?_encodeAll (rules : List Rule) :
  decodeAll? (encodeAll rules) = some rules
  := by
  have hpos : 0 < encodedLength := by decide
  rw [decodeAll?, length_encodeAll, if_pos (Nat.mul_mod_left _ _), Nat.mul_div_cancel _ hpos,
    decodeFirst_encodeAll]

/-- What is read as a rule is the stored form of the rule. -/
theorem encode_decode {bs : Bytes} (h : bs.length = encodedLength) :
  (decode bs).encode = bs
  := by
  obtain ⟨selector, code, value, rfl⟩ : ∃ selector code value, bs = selector :: code :: value := by
    match bs, h with
    | selector :: code :: value, _ => exact ⟨selector, code, value, rfl⟩
  have hlength : value.length = 16 := Nat.succ.inj (Nat.succ.inj h)
  have hvalue : BigEndian.decode value % 2 ^ 128 = BigEndian.decode value := by
    apply Nat.mod_eq_of_lt
    have hlt := BigEndian.decode_lt value
    rw [hlength] at hlt
    exact hlt
  change selector :: code ::
    BigEndian.encode 16 (BitVec.ofNat 128 (BigEndian.decode value)).toNat = _
  rw [BitVec.toNat_ofNat, hvalue, ← hlength, BigEndian.encode_decode]

/-- What is read as a number of rules is the stored form of these rules. -/
theorem encodeAll_decodeFirst {n : Nat} {bs : Bytes} (h : bs.length = n * encodedLength) :
  encodeAll (decodeFirst n bs) = bs
  := by
  induction n generalizing bs with
  | zero =>
      rw [Nat.zero_mul] at h
      rw [List.eq_nil_of_length_eq_zero h]
      rfl
  | succ n ih =>
      have hfirst : (bs.take encodedLength).length = encodedLength := by
        rw [List.length_take, h, Nat.succ_mul]
        omega
      have hothers : (bs.drop encodedLength).length = n * encodedLength := by
        rw [List.length_drop, h, Nat.succ_mul]
        omega
      rw [decodeFirst, encodeAll, List.flatMap_cons, ← encodeAll, ih hothers, encode_decode hfirst,
        List.take_append_drop]

/-- A sequence is read only from its stored form. -/
theorem decodeAll?_eq_some_iff {bs : Bytes} {rules : List Rule} :
  decodeAll? bs = some rules ↔ bs = encodeAll rules
  := by
  constructor
  · intro h
    rw [decodeAll?] at h
    split at h
    next hmod =>
      rw [← Option.some.inj h]
      symm
      apply encodeAll_decodeFirst
      rw [Nat.mul_comm]
      exact (Nat.mul_div_cancel' (Nat.dvd_of_mod_eq_zero hmod)).symm
    next => contradiction
  · rintro rfl
    apply decodeAll?_encodeAll

/-- A byte string can be read as a sequence when it is a whole number of rules long. -/
theorem exists_decodeAll?_iff {bs : Bytes} :
  (∃ rules, decodeAll? bs = some rules) ↔ encodedLength ∣ bs.length
  := by
  rw [Nat.dvd_iff_mod_eq_zero]
  constructor
  · rintro ⟨rules, h⟩
    rw [decodeAll?_eq_some_iff.mp h, length_encodeAll, Nat.mul_mod_left]
  · intro h
    rw [decodeAll?, if_pos h]
    exact ⟨_, rfl⟩

/-- Different sequences have different stored forms. -/
theorem encodeAll_injective {rules rules' : List Rule} (h : encodeAll rules = encodeAll rules') :
  rules = rules'
  := by
  apply Option.some.inj
  rw [← decodeAll?_encodeAll rules, h, decodeAll?_encodeAll]

/-- Two sequences have one reference when they are equal or their stored forms collide. -/
theorem ref_eq_ref_iff {rules rules' : List Rule} :
  RuleRef.of rules = RuleRef.of rules' ↔
    rules = rules' ∨ Sha256.IsCollision (encodeAll rules) (encodeAll rules')
  := by
  constructor
  · intro h
    by_cases heq : rules = rules'
    · exact Or.inl heq
    · exact Or.inr ⟨fun hforms => heq (encodeAll_injective hforms), congrArg RuleRef.digest h⟩
  · rintro (rfl | ⟨_, hdigest⟩)
    · rfl
    · exact congrArg RuleRef.mk hdigest

/-- A sequence is read back from its stored form, which has 18 bytes for each rule: selector, code
and the 16 bytes of the value, most significant first, whatever they are. A byte string can be
read exactly when it is a multiple of 18 bytes long, and only as the sequence of which it is the
stored form. Hence different sequences have different stored forms, and two sequences have one
reference only if they are equal or their stored forms collide. -/
theorem encodeAll_exact (rules rules' : List Rule) (bs : Bytes) :
  decodeAll? (encodeAll rules) = some rules ∧
    (encodeAll rules).length = 18 * rules.length ∧
    (∀ i : Nat,
      (encodeAll rules)[18 * i]? = rules[i]?.map selector ∧
      (encodeAll rules)[18 * i + 1]? = rules[i]?.map code ∧
      ∀ k : Fin 16, (encodeAll rules)[18 * i + (2 + k.val)]? =
        rules[i]?.map fun r => UInt8.ofNat (r.value.toNat / 256 ^ (15 - k.val))) ∧
    ((∃ read, decodeAll? bs = some read) ↔ 18 ∣ bs.length) ∧
    (decodeAll? bs = some rules ↔ encodeAll rules = bs) ∧
    (encodeAll rules = encodeAll rules' ↔ rules = rules') ∧
    (RuleRef.of rules = RuleRef.of rules' ↔
      rules = rules' ∨ Sha256.IsCollision (encodeAll rules) (encodeAll rules'))
  := by
  refine ⟨decodeAll?_encodeAll rules, ?_, layout_encodeAll rules, exists_decodeAll?_iff, ?_,
    ⟨encodeAll_injective, congrArg encodeAll⟩, ref_eq_ref_iff⟩
  · rw [length_encodeAll, Nat.mul_comm]
    rfl
  · rw [decodeAll?_eq_some_iff, eq_comm]

end Rule

end DelegatedAccess
