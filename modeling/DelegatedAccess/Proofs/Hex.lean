import DelegatedAccess.Hex
import Mathlib.Data.List.Basic

/-!
# Hexadecimal texts are read back

A byte string is read back from its digits, and from the same digits in upper case. Nothing else is
read as a byte string.
-/

namespace DelegatedAccess.Hex

/-- The hexadecimal digits of either case. -/
def digits : List Char :=
  "0123456789abcdefABCDEF".toList

/-! ### Digits -/

/-- The number of a digit is read from the digit. -/
theorem value?_digit {n : Nat} (h : n < 16) :
  value? (digit n) = some n
  := by
  have hall : ∀ n < 16, value? (digit n) = some n := by decide
  exact hall n h

/-- Digits are ASCII characters. -/
theorem toNat_lt_of_mem_digits {c : Char} (h : c ∈ digits) :
  c.toNat < 128
  := by
  have hall : digits.all fun c => c.toNat < 128 := by decide +kernel
  exact of_decide_eq_true (List.all_eq_true.mp hall c h)

/-- What stands for a number is an ASCII character. -/
theorem toNat_lt_of_value? {c : Char} {n : Nat} (h : value? c = some n) :
  c.toNat < 128
  := by
  have hle : ∀ d : Char, d.toNat < 128 → c ≤ d → c.toNat < 128 :=
    fun d hd hcd => Nat.lt_of_le_of_lt hcd hd
  rw [value?] at h
  split at h
  next hc => exact hle '9' (by decide) hc.2
  next =>
    split at h
    next hc => exact hle 'f' (by decide) hc.2
    next =>
      split at h
      next hc => exact hle 'F' (by decide) hc.2
      next => contradiction

/-- What stands for a number is a digit. -/
theorem mem_digits_of_value? {c : Char} {n : Nat} (h : value? c = some n) :
  c ∈ digits
  := by
  have hall : ∀ k < 128, (value? (Char.ofNat k)).isSome → Char.ofNat k ∈ digits := by
    decide +kernel
  rw [← Char.ofNat_toNat c]
  apply hall c.toNat (toNat_lt_of_value? h)
  rw [Char.ofNat_toNat, h]
  rfl

/-- A digit stands for a number below sixteen, whose own digit is that one in lower case. -/
theorem value?_of_mem_digits {c : Char} (h : c ∈ digits) :
  ∃ n, n < 16 ∧ value? c = some n ∧ digit n = c.toLower
  := by
  have hall : digits.all fun c => (value? c).any fun n => n < 16 ∧ digit n = c.toLower := by
    decide +kernel
  obtain ⟨n, hvalue, hn⟩ := (Option.any_eq_true _ _).mp (List.all_eq_true.mp hall c h)
  obtain ⟨hlt, hdigit⟩ := of_decide_eq_true hn
  exact ⟨n, hlt, hvalue, hdigit⟩

/-- What stands for a number stands for one below sixteen. -/
theorem lt_of_value? {c : Char} {n : Nat} (h : value? c = some n) :
  n < 16
  := by
  obtain ⟨m, hm, hvalue, _⟩ := value?_of_mem_digits (mem_digits_of_value? h)
  obtain rfl := Option.some.inj (hvalue.symm.trans h)
  exact hm

/-- A digit in lower case stands for the same number. -/
theorem value?_toLower {c : Char} (h : c ∈ digits) :
  value? c.toLower = value? c
  := by
  obtain ⟨n, hn, hvalue, hdigit⟩ := value?_of_mem_digits h
  rw [← hdigit, value?_digit hn, hvalue]

/-! ### Byte strings -/

/-- A byte has two digits. -/
theorem length_encode (bs : Bytes) :
  (encode bs).length = 2 * bs.length
  := by
  induction bs with
  | nil => rfl
  | cons b bs ih =>
      rw [encode, List.length_cons, List.length_cons, ih, List.length_cons]
      omega

/-- A byte string is read back from its digits. -/
theorem decode?_encode (bs : Bytes) :
  decode? (encode bs) = some bs
  := by
  induction bs with
  | nil => rfl
  | cons b bs ih =>
      have hb := b.toNat_lt
      rw [encode, decode?, value?_digit (by omega), value?_digit (by omega), ih]
      change some (UInt8.ofNat (16 * (b.toNat / 16) + b.toNat % 16) :: bs) = some (b :: bs)
      rw [Nat.div_add_mod, UInt8.ofNat_toNat]

/-- The case of digits does not matter. -/
theorem decode?_map_toLower {cs : List Char} (h : ∀ c ∈ cs, c ∈ digits) :
  decode? (cs.map Char.toLower) = decode? cs
  := by
  induction cs using decode?.induct with
  | case1 => rfl
  | case2 => rfl
  | case3 hi lo rest ih =>
      obtain ⟨hhi, h⟩ := List.forall_mem_cons.mp h
      obtain ⟨hlo, h⟩ := List.forall_mem_cons.mp h
      rw [List.map_cons, List.map_cons, decode?, value?_toLower hhi, value?_toLower hlo, ih h,
        decode?]

/-- A byte string is read from digits only, and these are its own up to their case. -/
theorem of_decode? {cs : List Char} {bs : Bytes} (h : decode? cs = some bs) :
  (∀ c ∈ cs, c ∈ digits) ∧ encode bs = cs.map Char.toLower
  := by
  induction cs using decode?.induct generalizing bs with
  | case1 =>
      obtain rfl := Option.some.inj h
      exact ⟨nofun, rfl⟩
  | case2 => contradiction
  | case3 hi lo rest ih =>
      obtain ⟨x, hx, h⟩ := Option.bind_eq_some_iff.mp h
      obtain ⟨y, hy, h⟩ := Option.bind_eq_some_iff.mp h
      obtain ⟨bs, hrest, h⟩ := Option.bind_eq_some_iff.mp h
      obtain rfl := Option.some.inj h
      have hhi := mem_digits_of_value? hx
      have hlo := mem_digits_of_value? hy
      obtain ⟨x, hlt, hvalue, hxlower⟩ := value?_of_mem_digits hhi
      obtain rfl := Option.some.inj (hvalue.symm.trans hx)
      obtain ⟨y, hlt', hvalue, hylower⟩ := value?_of_mem_digits hlo
      obtain rfl := Option.some.inj (hvalue.symm.trans hy)
      obtain ⟨hdigits, hlower⟩ := ih hrest
      have hbyte : (UInt8.ofNat (16 * x + y)).toNat = 16 * x + y :=
        UInt8.toNat_ofNat_of_lt' (show 16 * x + y < 256 by omega)
      have hhigh : (16 * x + y) / 16 = x := by omega
      have hlow : (16 * x + y) % 16 = y := by omega
      refine ⟨List.forall_mem_cons.mpr ⟨hhi, List.forall_mem_cons.mpr ⟨hlo, hdigits⟩⟩, ?_⟩
      rw [encode, hbyte, hhigh, hlow, hxlower, hylower, hlower, List.map_cons, List.map_cons]

/-- A byte string is read from its own digits in any case, and from nothing else. -/
theorem decode?_eq_some_iff {cs : List Char} {bs : Bytes} :
  decode? cs = some bs ↔ (∀ c ∈ cs, c ∈ digits) ∧ encode bs = cs.map Char.toLower
  := by
  constructor
  · exact of_decode?
  · rintro ⟨hdigits, hlower⟩
    rw [← decode?_map_toLower hdigits, ← hlower, decode?_encode]

/-- An even number of digits writes a byte string. -/
theorem exists_decode? {cs : List Char} (h : ∀ c ∈ cs, c ∈ digits) (heven : cs.length % 2 = 0) :
  ∃ bs, decode? cs = some bs
  := by
  induction cs using decode?.induct with
  | case1 => exact ⟨[], rfl⟩
  | case2 => contradiction
  | case3 hi lo rest ih =>
      obtain ⟨hhi, h⟩ := List.forall_mem_cons.mp h
      obtain ⟨hlo, h⟩ := List.forall_mem_cons.mp h
      rw [List.length_cons, List.length_cons] at heven
      obtain ⟨x, _, hx, _⟩ := value?_of_mem_digits hhi
      obtain ⟨y, _, hy, _⟩ := value?_of_mem_digits hlo
      obtain ⟨bs, hrest⟩ := ih h (by omega)
      rw [decode?, hx, hy, hrest]
      exact ⟨_, rfl⟩

end DelegatedAccess.Hex
