/-!
# Decimal text

Natural numbers below `2 ^ 64` as decimal text. A number is written without leading zeros.
Reading also takes a plus sign in front and leading zeros, and nothing else.
-/

namespace DelegatedAccess.Decimal

/-- The number that decimal digits write. -/
def value (digits : List Char) : Nat :=
  digits.foldl (fun n c => n * 10 + (c.toNat - 48)) 0

/-- The text without a plus sign in front. -/
def unsigned : List Char → List Char
  | '+' :: cs => cs
  | cs => cs

/-- The number that a text writes, if the text is a number below `2 ^ 64`. -/
def read? (text : String) : Option UInt64 :=
  let digits := unsigned text.toList
  let n := value digits
  if digits ≠ [] ∧ digits.all Char.isDigit ∧ n < UInt64.size then some (UInt64.ofNat n) else none

/-- The text of a number. -/
def write (n : UInt64) : String :=
  toString n.toNat

end DelegatedAccess.Decimal
