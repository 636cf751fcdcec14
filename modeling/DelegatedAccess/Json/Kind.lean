import DelegatedAccess.Json.Number
import DelegatedAccess.Json.Text
import DelegatedAccess.Rule.Basic

/-!
# Values of an expected kind

Readers for numbers of a fixed width, texts, arrays, and values that may be null. A value of
another kind is unfit. It is read to its end before it is refused, unless it is an array or an
object, so a problem inside it counts first.
-/

namespace DelegatedAccess.Json

/-- Refuses the next value, which is of another kind than expected. -/
def refuse {α : Type} : JsonReader α := do
  match ← Reader.peek? with
  | some 'n' => expect "null"
  | some 't' => expect "true"
  | some 'f' => expect "false"
  | some '"' =>
      let _ ← text
  | some '[' => pure ()
  | some '{' => pure ()
  | some c =>
      if startsNumber c then
        let _ ← number
      else malformed
  | none => malformed
  unfit

/-- A natural number below a bound. -/
def natural (bound : Nat) : JsonReader Nat := do
  skipBlanks
  match ← Reader.peek? with
  | some c =>
      if startsNumber c then
        match (← number).natural? with
        | some n => if n < bound then return n else unfit
        | none => unfit
      else refuse
  | none => malformed

/-- A number of 8 bits. -/
def byte : JsonReader UInt8 := do
  return UInt8.ofNat (← natural UInt8.size)

/-- A number of 64 bits. -/
def word : JsonReader UInt64 := do
  return UInt64.ofNat (← natural UInt64.size)

/-- A number of 128 bits. Only its digits are looked at, so anything else is malformed. -/
def wide : JsonReader DelegatedAccess.Value := do
  skipBlanks
  let n := Decimal.value (← wholeDigits)
  let v := BitVec.ofNat 128 n
  if v.toNat = n then return v else malformed

/-- A text. -/
def textValue : JsonReader String := do
  skipBlanks
  if (← Reader.peek?) = some '"' then text else refuse

/-- A value that may be null. -/
def nullable {α : Type} (value : JsonReader α) : JsonReader (Option α) := do
  skipBlanks
  if (← Reader.peek?) = some 'n' then
    expect "null"
    return none
  else return some (← value)

/-- The next value of an array, if there is one before the closing bracket. -/
def item? {α : Type} (value : JsonReader α) (isFirst : Bool) : JsonReader (Option α) := do
  if ← nextItem? ']' isFirst then return some (← value)
  else return none

/-- An array of values of one kind. -/
def array {α : Type} (value : JsonReader α) : JsonReader (List α) := do
  skipBlanks
  if ← Reader.skip? ['['] then
    match ← item? value true with
    | none =>
        expect "]"
        return []
    | some a =>
        let as ← Reader.repeatUntilNone .malformed (item? value false)
        expect "]"
        return a :: as
  else refuse

end DelegatedAccess.Json
