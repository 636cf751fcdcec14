/-!
# The range of binary64 numbers

A binary64 number has 53 significant bits and is finite below `2 ^ 1024`. A natural number is
rounded to 53 bits, a tie going to the even neighbour. A number from the middle between the
largest finite number and `2 ^ 1024` on is out of range.
-/

namespace DelegatedAccess.Binary64

/-- The number of bits of a number. -/
def width (n : Nat) : Nat :=
  if n = 0 then 0 else n.log2 + 1

/-- The nearest number with 53 significant bits. -/
def round (n : Nat) : Nat :=
  let unit := 1 <<< (width n - 53)
  let low := n / unit
  let twice := 2 * (n % unit)
  if unit < twice ∨ twice = unit ∧ low % 2 = 1 then (low + 1) * unit else low * unit

/-- The least number that is out of range. -/
def limit : Nat :=
  (1 <<< 1024) - (1 <<< 970)

end DelegatedAccess.Binary64
