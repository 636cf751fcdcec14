import DelegatedAccess.Entity

/-!
# Rules

A rule is a selector byte, an operator code and a value of 128 bits. A selector names what
is compared: a call argument, the height, the time, an oracle, or the rule's own value; one
selector marks the logic rules, whose value packs the indices of other rules of the same
sequence. A rule keeps its bytes as they are, so that a sequence with an unknown operator
or a reserved selector can be stored and read back.
-/

namespace DelegatedAccess

/-- A value of 128 bits. -/
abbrev Value := BitVec 128

/-- How a comparison rule tests the selected value. -/
inductive Comparison where
  | never
  | eq
  | ne
  | gt
  | lt
  | ge
  | le
  | positive
deriving DecidableEq, Repr

/-- How a logic rule combines its operands. -/
inductive Connective where
  | not
  | and
  | or
  | xor
  | ifElse
deriving DecidableEq, Repr

/-- What an operator code stands for. -/
inductive Operator where
  | compare (c : Comparison)
  | connect (c : Connective)
deriving DecidableEq, Repr

namespace Operator

/-- The code of an operator. Codes are part of the stored form of a rule. -/
def code : Operator → UInt8
  | compare .never => 0
  | compare .eq => 1
  | compare .ne => 2
  | compare .gt => 3
  | compare .lt => 4
  | compare .ge => 5
  | compare .le => 6
  | compare .positive => 7
  | connect .not => 8
  | connect .and => 9
  | connect .or => 10
  | connect .xor => 11
  | connect .ifElse => 12

/-- The operator with a code. -/
def ofCode? (code : UInt8) : Option Operator :=
  match code.toNat with
  | 0 => some (compare .never)
  | 1 => some (compare .eq)
  | 2 => some (compare .ne)
  | 3 => some (compare .gt)
  | 4 => some (compare .lt)
  | 5 => some (compare .ge)
  | 6 => some (compare .le)
  | 7 => some (compare .positive)
  | 8 => some (connect .not)
  | 9 => some (connect .and)
  | 10 => some (connect .or)
  | 11 => some (connect .xor)
  | 12 => some (connect .ifElse)
  | _ => none

/-- An operator is a logic operator when it combines other rules. -/
def isLogic : Operator → Bool
  | compare _ => false
  | connect _ => true

/-- An operator is the one with its own code, and with no other. -/
theorem ofCode?_eq_some_iff {c : UInt8} {op : Operator} :
  ofCode? c = some op ↔ c = op.code
  := by
  constructor
  · intro h
    rw [ofCode?] at h
    split at h
    case h_14 => contradiction
    all_goals
      obtain rfl := Option.some.inj h
      apply UInt8.toNat_inj.mp
      assumption
  · rintro rfl
    rcases op with c | c <;> cases c <;> rfl

end Operator

/-- One condition of a rule sequence. -/
structure Rule where
  /-- What the rule looks at. -/
  selector : UInt8
  /-- The code of its operator, known or not. -/
  code : UInt8
  /-- What it compares with, or the packed operands of a logic rule. -/
  value : Value
deriving DecidableEq, Repr

namespace Rule

/-- The largest selector of a call argument. -/
def lastArgument : UInt8 := 199

/-- The selector of the height. -/
def heightSelector : UInt8 := 200

/-- The selector of the time. -/
def timestampSelector : UInt8 := 201

/-- The selector of the answer of an oracle. -/
def oracleSelector : UInt8 := 203

/-- The selector of logic rules. -/
def logicSelector : UInt8 := 204

/-- The selector of the rule's own value. -/
def ownValueSelector : UInt8 := 205

/-- The operator of a rule, if its code is known. -/
def operator? (r : Rule) : Option Operator :=
  Operator.ofCode? r.code

/-- The rule that applies an operator to what a selector names. -/
def of (selector : UInt8) (op : Operator) (value : Value) : Rule :=
  ⟨selector, op.code, value⟩

/-- Three rule indices packed into a value, the first in the lowest 32 bits. -/
def pack (a b c : BitVec 32) : Value :=
  0#32 ++ c ++ b ++ a

/-- The three rule indices packed into a value. -/
def unpack (v : Value) : BitVec 32 × BitVec 32 × BitVec 32 :=
  (v.extractLsb' 0 32, v.extractLsb' 32 32, v.extractLsb' 64 32)

/-! ### Constructors -/

/-- Tests a call argument. -/
def argument (index : UInt8) (op : Operator) (value : Value) : Rule :=
  of index op value

/-- Passes always. -/
def always : Rule :=
  of ownValueSelector (.compare .positive) 1

/-- Passes never. -/
def never : Rule :=
  of ownValueSelector (.compare .positive) 0

/-- Tests the time. -/
def timestamp (op : Operator) (value : Value) : Rule :=
  of timestampSelector op value

/-- Tests the height. -/
def height (op : Operator) (value : Value) : Rule :=
  of heightSelector op value

/-- Passes when the oracle registered for an entity answers yes. -/
def oracle (e : Entity) : Rule :=
  of oracleSelector (.compare .eq) (e.id.toBitVec.setWidth 128)

/-- Combines rules of the same sequence. -/
def logic (c : Connective) (a b c' : BitVec 32) : Rule :=
  of logicSelector (.connect c) (pack a b c')

/-- Passes when the rule at `a` fails. -/
def not (a : BitVec 32) : Rule :=
  logic .not a 0 0

/-- Passes when the rules at `a` and `b` pass. -/
def and (a b : BitVec 32) : Rule :=
  logic .and a b 0

/-- Passes when the rule at `a` or the rule at `b` passes. -/
def or (a b : BitVec 32) : Rule :=
  logic .or a b 0

/-- Passes when one of the rules at `a` and `b` passes and the other fails. -/
def xor (a b : BitVec 32) : Rule :=
  logic .xor a b 0

/-- Follows the rule at `b` when the rule at `a` passes, and the rule at `c` otherwise. -/
def ifElse (a b c : BitVec 32) : Rule :=
  logic .ifElse a b c

end Rule

end DelegatedAccess
