import DelegatedAccess.Rule.Encoding

/-!
# Errors of rule sequences

What can be wrong with a rule sequence, and how it is said. Rules and operands are named by
their places in the sequence, from zero.
-/

namespace DelegatedAccess

/-- What is wrong with a rule sequence. -/
inductive RuleError where
  | argumentOutOfRange (rule : Nat) (index : UInt8) (supplied : Nat)
  | unknownOperator (rule : Nat) (code : UInt8)
  | unknownSelector (rule : Nat) (selector : UInt8)
  | operandOutOfRange (rule operand length : Nat)
  | misplacedLogic (rule : Nat)
  | depthExceeded (limit : Nat)
  | unreachable (rule : Nat)
  | cycle (rule : Nat)
  | unknownOracle (rule : Nat) (oracle : Value)
  | missingRules (ref : RuleRef)
  | corrupted (ref : RuleRef)
deriving DecidableEq, Repr

/-- The text of an error. -/
def RuleError.message : RuleError → String
  | argumentOutOfRange rule index supplied =>
      s!"rule {rule} reads argument {index.toNat} but only {supplied} were supplied"
  | unknownOperator rule code => s!"rule {rule} uses unknown operator code {code.toNat}"
  | unknownSelector rule selector =>
      s!"rule {rule} uses reserved argument selector {selector.toNat}"
  | operandOutOfRange rule operand length =>
      s!"rule {rule} references rule {operand} of a {length}-rule sequence"
  | misplacedLogic rule => s!"rule {rule} mixes a logic operator with a non-logic selector"
  | depthExceeded limit => s!"rule evaluation exceeded depth {limit}"
  | unreachable rule => s!"rule {rule} is not reachable from any top-level rule"
  | cycle rule => s!"rule {rule} is part of a logic cycle"
  | unknownOracle rule oracle => s!"rule {rule} references unregistered oracle {oracle.toNat}"
  | missingRules ref => s!"rule sequence {ref.hex} is missing from the store"
  | corrupted ref => s!"stored rule sequence {ref.hex} is corrupted"

end DelegatedAccess
