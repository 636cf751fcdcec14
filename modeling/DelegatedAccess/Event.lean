import DelegatedAccess.Role
import DelegatedAccess.Rule.Encoding

/-!
# Events

An event tells of one change of a store.
-/

namespace DelegatedAccess

/-- A change of a store. -/
inductive Event where
  /-- A grant was installed, or removed. -/
  | permissionSet (entity : Entity) (pair : Pair) (allowed : Bool) (ref : Option RuleRef)
  /-- A grant referred to a rule sequence that was not stored before. -/
  | rulesStored (entity : Entity) (pair : Pair) (ref : RuleRef) (length : Nat)
  /-- A pair was given a manager, or lost it. -/
  | managerChanged (pair : Pair) (manager : Option Entity)
  /-- The store was initialized. -/
  | initialized (root : Entity)
  /-- The store became a template. -/
  | frozen
deriving DecidableEq, Repr

end DelegatedAccess
