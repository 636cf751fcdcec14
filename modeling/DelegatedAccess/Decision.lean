import DelegatedAccess.Rule.Evaluation

/-!
# Decisions

A request is decided by the grants that count for it, each represented by its gate: the rule
sequence it is under, or the reason why there is none to evaluate. The request is granted as
soon as a gate passes. If none does, it is misconfigured when some gate is in error, the
first such error being reported, and else denied.
-/

namespace DelegatedAccess

/-- The rule sequence a grant is under, or why it cannot be evaluated. -/
abbrev Gate := Except RuleError (List Rule)

/-- The outcome of a request. -/
inductive Decision where
  | granted
  | denied
  /-- No grant passed, and this is wrong with the first that could not be evaluated. -/
  | misconfigured (error : RuleError)
deriving DecidableEq, Repr

variable {σ : Type}

/-- Whether a gate passes. -/
def Gate.passes (panel : Panel σ) (req : Request) (limit : Nat) :
    Gate → ExceptT RuleError (StateM σ) Bool
  | .error e => throw e
  | .ok rules => Rule.evaluate rules panel req limit

/-- The decision on a request by gates, which are tried in order until one passes. -/
def Decision.byGates (panel : Panel σ) (req : Request) (limit : Nat) :
    List Gate → StateM σ Decision
  | [] => pure .denied
  | gate :: gates => do
      match ← (Gate.passes panel req limit gate).run with
      | .ok true => pure .granted
      | .ok false => byGates panel req limit gates
      | .error e =>
          match ← byGates panel req limit gates with
          | .granted => pure .granted
          | _ => pure (.misconfigured e)

end DelegatedAccess
