import DelegatedAccess.Binary64
import DelegatedAccess.Decimal
import DelegatedAccess.Json.Reader

/-!
# JSON numbers

A number is an optional minus sign, digits without a leading zero, and optionally a fraction
and an exponent. A number beyond the range of binary64 is refused. That range is tested on a
significand of 64 bits: as many of the leading digits as fit, scaled by a power of ten.
-/

namespace DelegatedAccess.Json

/-- A number as it is written. -/
structure Numeral where
  isNegative : Bool
  /-- The digits before the point. -/
  whole : List Char
  /-- The digits after the point. -/
  fraction : Option (List Char)
  /-- The power of ten after the letter `e`. -/
  exponent : Option Int
deriving DecidableEq, Repr

/-- Whether a number may begin with a character. -/
def startsNumber (c : Char) : Bool :=
  c == '-' || c.isDigit

/-- At least one digit. -/
def digits : JsonReader (List Char) := do
  match ← Reader.takeWhile Char.isDigit with
  | [] => malformed
  | ds => return ds

/-- The digits of a natural number, of which the first is zero only if it stands alone. -/
def wholeDigits : JsonReader (List Char) := do
  match ← digits with
  | '0' :: _ :: _ => malformed
  | ds => return ds

/-- The digits after a point, if one comes next. -/
def fraction? : JsonReader (Option (List Char)) := do
  if ← Reader.skip? ['.'] then return some (← digits)
  else return none

/-- The power of ten after a letter `e` of either case, if one comes next. -/
def exponent? : JsonReader (Option Int) := do
  match ← Reader.peek? with
  | some 'e' | some 'E' =>
      Reader.advance
      let isNegative ← Reader.skip? ['-']
      unless isNegative do
        let _ ← Reader.skip? ['+']
      let n : Int := Decimal.value (← digits)
      return some (if isNegative then -n else n)
  | _ => return none

/-- A number, of any size. -/
def numeral : JsonReader Numeral := do
  let isNegative ← Reader.skip? ['-']
  let whole ← wholeDigits
  let fraction ← fraction?
  let exponent ← exponent?
  return { isNegative, whole, fraction, exponent }

/-- Appends digits to a number as long as it fits in 64 bits, and leaves the others. -/
def gather (n : Nat) : List Char → Nat × List Char
  | [] => (n, [])
  | c :: cs =>
      let next := 10 * n + (c.toNat - 48)
      if next < UInt64.size then gather next cs else (n, c :: cs)

namespace Numeral

/-- The leading digits that fit in 64 bits, and the power of ten by which they are scaled. -/
def scaled (n : Numeral) : Nat × Int :=
  let fraction := n.fraction.getD []
  let (head, uncounted) := gather 0 n.whole
  let (significand, unused) := gather head fraction
  let counted := fraction.length - unused.length
  (significand, (uncounted.length : Int) - counted + n.exponent.getD 0)

/-- Whether a number is beyond the range of binary64. -/
def isOutOfRange (n : Numeral) : Bool :=
  let (significand, exponent) := n.scaled
  significand ≠ 0 && (308 < exponent || 0 ≤ exponent &&
    Binary64.limit ≤ Binary64.round significand * Binary64.round (Nat.pow 10 exponent.toNat))

/-- The natural number that is written by digits alone. -/
def natural? (n : Numeral) : Option Nat :=
  if n.isNegative ∨ n.fraction.isSome ∨ n.exponent.isSome then none
  else some (Decimal.value n.whole)

end Numeral

/-- A number in the range of binary64. -/
def number : JsonReader Numeral := do
  let n ← numeral
  if n.isOutOfRange then malformed
  else return n

end DelegatedAccess.Json
