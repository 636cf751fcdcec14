import DelegatedAccess.Decimal

/-!
# Decimal texts are read back

A number below `2 ^ 64` is read back from the text that is written for it.
-/

namespace DelegatedAccess.Decimal

/-- The digits of a number write the number. -/
theorem value_toDigits (n : Nat) :
  value (Nat.toDigits 10 n) = n
  := by
  have h : value (Nat.toDigits 10 n) = Nat.ofDigitChars 10 (Nat.toDigits 10 n) 0 := by
    rw [value, Nat.ofDigitChars]
    congr 1
    funext m c
    rw [Nat.mul_comm]
    rfl
  rw [h, Nat.ofDigitChars_ten_toDigits]

/-- Digits have no plus sign in front. -/
theorem unsigned_of_isDigit {cs : List Char} (h : ∀ c ∈ cs, c.isDigit) :
  unsigned cs = cs
  := by
  rw [unsigned.eq_def]
  split
  · have := h '+' List.mem_cons_self
    contradiction
  · rfl

/-- A number is read back from its text. -/
@[simp] theorem read?_write (n : UInt64) :
  read? (write n) = some n
  := by
  have hdigit : ∀ c ∈ Nat.toDigits 10 n.toNat, c.isDigit := by
    intro c hc
    apply Nat.isDigit_of_mem_toDigits (by decide) (by decide) hc
  have hall : (Nat.toDigits 10 n.toNat).all Char.isDigit = true := List.all_eq_true.mpr hdigit
  have hlist : (write n).toList = Nat.toDigits 10 n.toNat := Nat.toList_repr
  rw [read?, hlist, unsigned_of_isDigit hdigit, value_toDigits]
  rw [if_pos ⟨Nat.toDigits_ne_nil, hall, n.toNat_lt⟩, UInt64.ofNat_toNat]

end DelegatedAccess.Decimal
