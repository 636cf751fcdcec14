import DelegatedAccess.Rule.Basic

/-!
# Clauses

A clause is what a rule says, read off its bytes: a test of a selected value, or a formula
over other rules of the sequence. A rule has no clause when its operator is unknown, or when
a logic operator stands without the logic selector or the logic selector without a logic
operator. Structure and evaluation read a rule only through its clause, so they agree on
which operands it has.
-/

namespace DelegatedAccess

/-- What a comparison rule looks at. -/
inductive Source where
  | argument (index : UInt8)
  | height
  | timestamp
  | oracle
  | ownValue
  | reserved (selector : UInt8)
deriving DecidableEq, Repr

/-- What a selector other than the logic selector names. -/
def Source.ofSelector (s : UInt8) : Source :=
  if s ≤ Rule.lastArgument then .argument s
  else if s = Rule.heightSelector then .height
  else if s = Rule.timestampSelector then .timestamp
  else if s = Rule.oracleSelector then .oracle
  else if s = Rule.ownValueSelector then .ownValue
  else .reserved s

/-- Whether a selected value passes the comparison with another value. -/
def Comparison.holds (c : Comparison) (v w : Value) : Bool :=
  match c with
  | .never => false
  | .eq => v == w
  | .ne => v != w
  | .gt => w.ult v
  | .lt => v.ult w
  | .ge => w.ule v
  | .le => v.ule w
  | .positive => (0 : Value).ult v

/-- A connective with its operands. -/
inductive Formula (ι : Type) where
  | not (a : ι)
  | and (a b : ι)
  | or (a b : ι)
  | xor (a b : ι)
  | ifElse (a b c : ι)
deriving DecidableEq, Repr

namespace Formula

variable {ι : Type}

/-- The operands of a formula, in order and with repetitions. -/
def operands : Formula ι → List ι
  | not a => [a]
  | and a b => [a, b]
  | or a b => [a, b]
  | xor a b => [a, b]
  | ifElse a b c => [a, b, c]

/-- The value of a formula whose operands are asked for from left to right, and only while
the value is still open. -/
def evalM {m : Type → Type} [Monad m] (ask : ι → m Bool) : Formula ι → m Bool
  | not a => do
      let x ← ask a
      pure (!x)
  | and a b => do
      let x ← ask a
      if x then ask b else pure false
  | or a b => do
      let x ← ask a
      if x then pure true else ask b
  | xor a b => do
      let x ← ask a
      let y ← ask b
      pure (x ^^ y)
  | ifElse a b c => do
      let x ← ask a
      if x then ask b else ask c

end Formula

/-- The formula a connective makes of as many of three operands as it needs. -/
def Connective.formula {ι : Type} (k : Connective) (a b c : ι) : Formula ι :=
  match k with
  | .not => .not a
  | .and => .and a b
  | .or => .or a b
  | .xor => .xor a b
  | .ifElse => .ifElse a b c

/-- What a rule says. -/
inductive Clause where
  /-- The selected value is tested against the value of the rule. -/
  | test (source : Source) (comparison : Comparison)
  /-- Other rules of the sequence, named by their indices, are combined. -/
  | combine (formula : Formula (BitVec 32))
deriving DecidableEq, Repr

/-- Why a rule says nothing. -/
inductive Defect where
  | unknownOperator
  | misplacedLogic
deriving DecidableEq, Repr

namespace Rule

/-- What a rule says. -/
def clause (r : Rule) : Except Defect Clause :=
  match r.operator? with
  | none => .error .unknownOperator
  | some (.compare c) =>
      if r.selector = logicSelector then .error .misplacedLogic
      else .ok (.test (Source.ofSelector r.selector) c)
  | some (.connect k) =>
      if r.selector = logicSelector then
        let (a, b, c) := unpack r.value
        .ok (.combine (k.formula a b c))
      else .error .misplacedLogic

/-- The indices of the rules that a rule refers to. Only a logic rule refers to any. -/
def operands (r : Rule) : List (BitVec 32) :=
  match r.clause with
  | .ok (.combine f) => f.operands
  | _ => []

end Rule

end DelegatedAccess
