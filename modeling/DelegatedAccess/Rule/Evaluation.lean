import DelegatedAccess.Oracle.Basic
import DelegatedAccess.Rule.Structure

/-!
# The evaluation of rule sequences

A sequence passes when all of its top-level rules pass, from left to right. A rule is
evaluated when it is first asked for, and its value is kept for the rest of the evaluation.
Formulas ask for their operands from left to right, and only while their value is open. The
depth at which a rule may be asked for is limited; a top-level rule has depth zero.
-/

namespace DelegatedAccess.Rule

variable {σ : Type}

/-- What is known about a rule during an evaluation. -/
inductive Mark where
  /-- Nothing has asked for the rule. -/
  | pending
  /-- The rule is being evaluated. -/
  | visiting
  /-- The rule has a value. -/
  | done (value : Bool)
deriving DecidableEq, Repr

/-- The value of a test, and the value it is compared with. The answer of an oracle counts
as one or zero and is compared with one. -/
def select (panel : Panel σ) (req : Request) (i : Nat) (r : Rule) :
    Source → ExceptT RuleError (StateM σ) (Value × Value)
  | .argument k =>
      match req.question.args[k.toNat]? with
      | some v => pure (v, r.value)
      | none => throw (.argumentOutOfRange i k req.question.args.length)
  | .height => pure (req.context.height.toBitVec.setWidth 128, r.value)
  | .timestamp => pure (req.context.timestamp.toBitVec.setWidth 128, r.value)
  | .oracle =>
      match panel.named? r.value with
      | some oracle => do
          let yes ← (oracle req.question : StateM σ Bool)
          pure (if yes then 1 else 0, 1)
      | none => throw (.unknownOracle i r.value)
  | .ownValue => pure (r.value, r.value)
  | .reserved s => throw (.unknownSelector i s)

/-- Whether the test a rule makes is passed. -/
def test (panel : Panel σ) (req : Request) (i : Nat) (r : Rule) (source : Source)
    (c : Comparison) : ExceptT RuleError (StateM σ) Bool := do
  let (v, w) ← select panel req i r source
  pure (c.holds v w)

/-- The value of the rule at an index, asked for by the rule at `source`. The budget is the
number of rules that may be nested from here on. -/
def evalAt (rules : List Rule) (panel : Panel σ) (req : Request) (limit : Nat) :
    (budget : Nat) → (source index : Nat) →
    StateT (Vector Mark rules.length) (ExceptT RuleError (StateM σ)) Bool
  | 0, _, _ => throw (.depthExceeded limit)
  | budget + 1, source, index =>
      if h : index < rules.length then do
        match (← get)[index] with
        | .done value => return value
        | .visiting => throw (.cycle index)
        | .pending =>
            modify (·.set index .visiting)
            let r := rules[index]
            let value ← match r.clause with
              | .error .unknownOperator => throw (.unknownOperator index r.code)
              | .error .misplacedLogic => throw (.misplacedLogic index)
              | .ok (.test source c) => StateT.lift (test panel req index r source c)
              | .ok (.combine f) =>
                  f.evalM fun j => evalAt rules panel req limit budget index j.toNat
            modify (·.set index (.done value))
            return value
      else throw (.operandOutOfRange source index rules.length)

/-- Whether a sequence passes for a request. A rule is an error when it is asked for at a
depth beyond the limit. The empty sequence passes. -/
def evaluate (rules : List Rule) (panel : Panel σ) (req : Request) (limit : Nat) :
    ExceptT RuleError (StateM σ) Bool :=
  match roots rules with
  | .error e => throw e
  | .ok roots =>
      let passes (i : Fin rules.length) := evalAt rules panel req limit (limit + 1) i i
      StateT.run' (roots.allM passes) (Vector.replicate rules.length .pending)

end DelegatedAccess.Rule
