import DelegatedAccess.Binary64
import DelegatedAccess.Toml.Value

/-!
# TOML numbers, dates and times

What a run of characters without quotes stands for: a truth value, an integer, a number with
a fraction or an exponent, or a date or time. Integers must fit in 128 bits, and other
numbers must not be beyond the range of binary64.
-/

namespace DelegatedAccess.Toml

/-- Whether a character is a decimal digit. -/
def isDecimal (c : Char) : Bool :=
  '0' ≤ c && c ≤ '9'

/-- The number that a digit of any base up to sixteen stands for. -/
def digitValue (c : Char) : Nat :=
  if isDecimal c then c.toNat - 48
  else if 'a' ≤ c ∧ c ≤ 'f' then c.toNat - 87
  else c.toNat - 55

/-- The number that digits write in a base. -/
def numberOf (base : Nat) (digits : List Char) : Nat :=
  digits.foldl (fun n c => n * base + digitValue c) 0

/-- The digits of a run in which single underscores may stand between digits. -/
def digits? (isDigit : Char → Bool) : List Char → Option (List Char)
  | [] => none
  | [c] => if isDigit c then some [c] else none
  | c :: '_' :: cs => if isDigit c then (digits? isDigit cs).map (c :: ·) else none
  | c :: cs => if isDigit c then (digits? isDigit cs).map (c :: ·) else none

/-- The digits of a decimal integer without sign: no zero in front of other digits. -/
def wholeDigits? (cs : List Char) : Option (List Char) := do
  match ← digits? isDecimal cs with
  | ['0'] => if cs = ['0'] then some ['0'] else none
  | '0' :: _ => none
  | ds => some ds

/-- A run split into whether it has a minus sign, and what follows its sign. -/
def splitSign : List Char → Bool × List Char
  | '-' :: cs => (true, cs)
  | '+' :: cs => (false, cs)
  | cs => (false, cs)

/-- An integer, if it fits in 128 bits. -/
def bounded? (n : Int) : Option Value :=
  if n.natAbs ≤ 1 <<< 127 ∨ 0 ≤ n ∧ n.natAbs < 1 <<< 128 then some (.integer n) else none

/-- The integer that a run stands for. -/
def integer? (cs : List Char) : Option Int :=
  match cs with
  | '0' :: 'x' :: ds =>
      (digits? (fun c => isDecimal c || ('a' ≤ c && c ≤ 'f') || ('A' ≤ c && c ≤ 'F')) ds).map
        fun ds => Int.ofNat (numberOf 16 ds)
  | '0' :: 'o' :: ds =>
      (digits? (fun c => '0' ≤ c && c ≤ '7') ds).map fun ds => Int.ofNat (numberOf 8 ds)
  | '0' :: 'b' :: ds =>
      (digits? (fun c => c == '0' || c == '1') ds).map fun ds => Int.ofNat (numberOf 2 ds)
  | _ =>
      let (negative, ds) := splitSign cs
      (wholeDigits? ds).map fun ds =>
        let n := Int.ofNat (numberOf 10 ds)
        if negative then -n else n

/-- Whether `m * 10 ^ e` is beyond the range of binary64. -/
def overflows (m : Nat) (e : Int) : Bool :=
  let places := (Nat.toDigits 10 m).length
  if m = 0 then false
  else if 400 < (places : Int) + e then true
  else if (places : Int) + e < 300 then false
  else if e < 0 then Binary64.limit * Nat.pow 10 e.natAbs ≤ m
  else Binary64.limit ≤ m * Nat.pow 10 e.natAbs

/-- Whether a run is a number with a fraction, an exponent or both, in range. -/
def isFloat (cs : List Char) : Bool :=
  let (_, cs) := splitSign cs
  if cs = ['i', 'n', 'f'] || cs = ['n', 'a', 'n'] then true
  else
    let isMark := fun c => c == 'e' || c == 'E'
    let mantissa := cs.takeWhile fun c => !isMark c
    let whole := mantissa.takeWhile (· ≠ '.')
    let fraction : Option (List Char) := match mantissa.dropWhile (· ≠ '.') with
      | [] => some []
      | _ :: ds => digits? isDecimal ds
    let exponent : Option Int := match cs.dropWhile fun c => !isMark c with
      | [] => if mantissa.contains '.' then some 0 else none
      | _ :: ds =>
          let (negative, ds) := splitSign ds
          (digits? isDecimal ds).map fun ds =>
            let n := Int.ofNat (numberOf 10 ds)
            if negative then -n else n
    match wholeDigits? whole, fraction, exponent with
    | some ws, some fs, some e => !overflows (numberOf 10 (ws ++ fs)) (e - fs.length)
    | _, _, _ => false

/-! ### Dates and times -/

/-- The number of days of a month. -/
def daysIn (year month : Nat) : Nat :=
  if month = 2 then
    if year % 4 = 0 ∧ (year % 100 ≠ 0 ∨ year % 400 = 0) then 29 else 28
  else if month = 4 ∨ month = 6 ∨ month = 9 ∨ month = 11 then 30
  else 31

/-- What follows a date at the front of a run. -/
def dropDate? : List Char → Option (List Char)
  | y1 :: y2 :: y3 :: y4 :: '-' :: m1 :: m2 :: '-' :: d1 :: d2 :: cs =>
      let year := numberOf 10 [y1, y2, y3, y4]
      let month := numberOf 10 [m1, m2]
      let day := numberOf 10 [d1, d2]
      if [y1, y2, y3, y4, m1, m2, d1, d2].all isDecimal ∧ 1 ≤ month ∧ month ≤ 12 ∧ 1 ≤ day
          ∧ day ≤ daysIn year month then some cs
      else none
  | _ => none

/-- What follows two digits at the front of a run that write a number up to a bound. -/
def dropTwoDigits? (bound : Nat) : List Char → Option (List Char)
  | a :: b :: cs =>
      if isDecimal a ∧ isDecimal b ∧ numberOf 10 [a, b] ≤ bound then some cs else none
  | _ => none

/-- What follows a given character at the front of a run. -/
def dropChar? (c : Char) : List Char → Option (List Char)
  | x :: cs => if x = c then some cs else none
  | [] => none

/-- What follows hours and minutes at the front of a run. -/
def dropMinutes? (cs : List Char) : Option (List Char) := do
  let cs ← dropTwoDigits? 23 cs
  let cs ← dropChar? ':' cs
  dropTwoDigits? 59 cs

/-- What follows a time of day at the front of a run. Seconds, and a fraction of a second,
may be left out. -/
def dropTime? (cs : List Char) : Option (List Char) := do
  match ← dropMinutes? cs with
  | ':' :: cs =>
      match ← dropTwoDigits? 60 cs with
      | '.' :: cs =>
          match cs.takeWhile isDecimal with
          | [] => none
          | _ => some (cs.dropWhile isDecimal)
      | cs => some cs
  | cs => some cs

/-- Whether a run is an offset from universal time, or nothing. -/
def isOffset : List Char → Bool
  | [] => true
  | ['Z'] => true
  | ['z'] => true
  | c :: cs => (c == '+' || c == '-') && dropMinutes? cs == some []

/-- Whether a run is a date, a time of day, or a date with a time and perhaps an offset. -/
def isDateTime (cs : List Char) : Bool :=
  match dropDate? cs with
  | none => dropTime? cs == some []
  | some [] => true
  | some (c :: cs) =>
      (c == 'T' || c == 't' || c == ' ') &&
        match dropTime? cs with
        | none => false
        | some cs => isOffset cs

/-- The value that a run of characters stands for. -/
def scalar? (cs : List Char) : Option Value :=
  if cs = ['t', 'r', 'u', 'e'] then some (.boolean true)
  else if cs = ['f', 'a', 'l', 's', 'e'] then some (.boolean false)
  else match integer? cs with
    | some n => bounded? n
    | none =>
        if isFloat cs then some (.float (String.ofList cs))
        else if isDateTime cs then some (.dateTime (String.ofList cs))
        else none

end DelegatedAccess.Toml
