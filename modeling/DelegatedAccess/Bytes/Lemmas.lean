import DelegatedAccess.Bytes
import Mathlib.Tactic.Ring

/-!
# Byte strings as numbers

A number below `256 ^ w` is read back from its `w` bytes, and a string of `w` bytes is the
form of the number it reads as. Strings of one length are ordered like the numbers they read
as, and strings put together from parts of fixed lengths part by part.
-/

namespace DelegatedAccess

/-- Of two strings that begin with parts of one length, the one with the lower first part comes
first, and where the first parts are equal the one with the lower rest. -/
theorem Bytes.append_lt_append_iff {bs bs' : Bytes} (h : bs.length = bs'.length)
    (cs cs' : Bytes) :
  bs ++ cs < bs' ++ cs' ↔ bs < bs' ∨ bs = bs' ∧ cs < cs'
  := by
  induction bs generalizing bs' with
  | nil =>
      rw [List.eq_nil_of_length_eq_zero h.symm]
      simp
  | cons b bs ih =>
      cases bs' with
      | nil => contradiction
      | cons b' bs' =>
          rw [List.cons_append, List.cons_append, List.cons_lt_cons_iff, List.cons_lt_cons_iff,
            ih (Nat.succ.inj h), List.cons.injEq, and_assoc, and_or_left, or_assoc]

namespace BigEndian

/-- The first byte of a form is the number divided by a power of 256. -/
theorem encode_succ (w n : Nat) :
  encode (w + 1) n = UInt8.ofNat (n / 256 ^ w) :: encode w n
  := by
  rw [encode, Nat.shiftRight_eq_div_pow, Nat.pow_mul]

/-- The byte at a place of a form is the number divided by a power of 256. -/
theorem getElem?_encode {w k : Nat} (n : Nat) (h : k < w) :
  (encode w n)[k]? = some (UInt8.ofNat (n / 256 ^ (w - 1 - k)))
  := by
  induction w generalizing k with
  | zero => contradiction
  | succ w ih =>
      rw [encode_succ]
      cases k with
      | zero => rfl
      | succ k =>
          have hplace : w + 1 - 1 - (k + 1) = w - 1 - k := by omega
          rw [List.getElem?_cons_succ, ih (Nat.lt_of_succ_lt_succ h), hplace]

/-- Reading from a number on adds that number, moved up by the bytes read. -/
theorem foldl_eq_add_decode (bs : Bytes) (n : Nat) :
  bs.foldl (fun n b => n * 256 + b.toNat) n = n * 256 ^ bs.length + decode bs
  := by
  induction bs generalizing n with
  | nil => simp [decode]
  | cons b bs ih =>
      rw [decode, List.foldl_cons, List.foldl_cons, ih, ih (0 * 256 + b.toNat)]
      rw [List.length_cons, Nat.pow_succ']
      grind

/-- The first byte counts for the power of 256 of the bytes after it. -/
theorem decode_cons (b : UInt8) (bs : Bytes) :
  decode (b :: bs) = b.toNat * 256 ^ bs.length + decode bs
  := by
  rw [decode, List.foldl_cons, foldl_eq_add_decode]
  simp

/-- A byte string reads as a number that fits in its bytes. -/
theorem decode_lt (bs : Bytes) :
  decode bs < 256 ^ bs.length
  := by
  induction bs with
  | nil => exact Nat.one_pos
  | cons b bs ih =>
      have hb := b.toNat_lt
      have h := Nat.mul_le_mul_right (256 ^ bs.length) (show b.toNat + 1 ≤ 256 by omega)
      rw [Nat.add_mul, Nat.one_mul] at h
      rw [decode_cons, List.length_cons, Nat.pow_succ']
      omega

/-- Of two strings of one length, the one that comes first reads as the smaller number. -/
theorem decode_lt_decode {bs cs : Bytes} (hlen : bs.length = cs.length) (h : bs < cs) :
  decode bs < decode cs
  := by
  induction bs generalizing cs with
  | nil =>
      cases cs with
      | nil => exact absurd h (List.lt_irrefl [])
      | cons c cs => contradiction
  | cons b bs ih =>
      cases cs with
      | nil => contradiction
      | cons c cs =>
          have hlen' : bs.length = cs.length := Nat.succ.inj hlen
          have hbs := decode_lt bs
          rw [decode_cons, decode_cons, hlen']
          rcases List.cons_lt_cons_iff.mp h with hbc | ⟨rfl, hlt⟩
          · have hstep : (b.toNat + 1) * 256 ^ cs.length ≤ c.toNat * 256 ^ cs.length :=
              Nat.mul_le_mul_right _ (UInt8.lt_iff_toNat_lt.mp hbc)
            rw [Nat.add_mul, Nat.one_mul] at hstep
            rw [hlen'] at hbs
            omega
          · have hrest := ih hlen' hlt
            omega

/-- Strings of one length are ordered like the numbers they read as. -/
theorem decode_lt_decode_iff {bs cs : Bytes} (h : bs.length = cs.length) :
  decode bs < decode cs ↔ bs < cs
  := by
  constructor
  · intro hlt
    by_contra hnot
    rcases List.le_iff_lt_or_eq.mp (List.not_lt.mp hnot) with hgt | rfl
    · exact Nat.lt_asymm hlt (decode_lt_decode h.symm hgt)
    · exact Nat.lt_irrefl _ hlt
  · apply decode_lt_decode h

/-- The form of a number in `w` bytes reads as the number modulo `256 ^ w`. -/
theorem decode_encode (w n : Nat) :
  decode (encode w n) = n % 256 ^ w
  := by
  induction w with
  | zero => simp [encode, decode, Nat.mod_one]
  | succ w ih =>
      have h := Nat.mod_mul (x := n) (a := 256 ^ w) (b := 256)
      rw [encode_succ, decode_cons, ih, length_encode, UInt8.toNat_ofNat', Nat.pow_succ 256, h,
        Nat.add_comm, Nat.mul_comm]

/-- Only the number modulo `256 ^ w` matters for its form in `w` bytes. -/
theorem encode_mod (w n k : Nat) (h : w ≤ k) :
  encode w (n % 256 ^ k) = encode w n
  := by
  induction w with
  | zero => rfl
  | succ w ih =>
      rw [encode_succ, encode_succ, ih (by omega)]
      congr 1
      apply UInt8.toNat_inj.mp
      rw [UInt8.toNat_ofNat', UInt8.toNat_ofNat']
      obtain ⟨m, rfl⟩ : ∃ m, k = w + 1 + m := ⟨k - (w + 1), by omega⟩
      rw [Nat.pow_add, Nat.pow_succ, Nat.mul_assoc, Nat.mod_mul_right_div_self,
        Nat.mod_mul_right_mod]

/-- A string of `w` bytes is the form of the number it reads as. -/
theorem encode_decode (bs : Bytes) :
  encode bs.length (decode bs) = bs
  := by
  induction bs with
  | nil => rfl
  | cons b bs ih =>
      have h := decode_lt bs
      rw [List.length_cons, encode_succ, decode_cons]
      congr 1
      · rw [Nat.mul_comm, Nat.mul_add_div (Nat.pow_pos (by omega)), Nat.div_eq_of_lt h]
        simp
      · rw [← encode_mod _ _ _ (Nat.le_refl _), Nat.mul_comm, Nat.mul_add_mod,
          Nat.mod_eq_of_lt h, ih]

end BigEndian

end DelegatedAccess
