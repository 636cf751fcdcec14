import DelegatedAccess.Instance

/-!
# Operations

The operations that change an instance. Creating a pair needs the creation capability, which
is decided like any other request, at the present time and height zero. The grants it was
decided on are read before an oracle is asked, and the transaction that creates the pair
makes sure that they are still the same.
-/

namespace DelegatedAccess

/-- A change asked of an instance. -/
inductive Operation where
  /-- Initializes the instance and gives the root the creation capability. -/
  | bootstrap (root : Entity)
  /-- Makes the instance a template. -/
  | freeze
  /-- Creates a pair, grants it to an entity under a rule sequence, and gives it a manager. -/
  | create (caller grantee : Entity) (pair : Pair) (manager : Entity) (rules : List Rule)
  /-- Creates a pair that nobody is granted and nobody manages. -/
  | createBurned (caller : Entity) (pair : Pair)
  /-- Grants a pair to an entity under a rule sequence. -/
  | grant (caller grantee : Entity) (pair : Pair) (rules : List Rule)
  /-- Removes the grant of a pair to an entity. -/
  | revoke (caller grantee : Entity) (pair : Pair)
  /-- Hands a pair over to another manager. -/
  | setManager (caller manager : Entity) (pair : Pair)
  /-- Takes the manager from a pair. -/
  | removeManager (caller : Entity) (pair : Pair)
  /-- Burns the manager of a pair. -/
  | burnManager (caller : Entity) (pair : Pair)
deriving DecidableEq, Repr

namespace World

variable {η ω : Type}

/-- An action on an instance that may fail. What oracles did before it fails stays done. -/
abbrev Attempt (η ω : Type) := ExceptT AccessError (StateM (World η ω))

/-- Refuses an entity that may not be granted anything. -/
def requireGrantee (e : Entity) : Except AccessError Unit :=
  if e = .burn then .error (.reservedEntity e .grantee) else .ok ()

/-- Refuses a reserved entity where a real actor is needed. -/
def requireActor (e : Entity) (usage : Usage) : Except AccessError Unit :=
  if e.IsReserved then .error (.reservedEntity e usage) else .ok ()

/-- Creates a pair for a caller with the creation capability, which is asked for with the
grantee, the resource of the pair, and the manager as arguments. -/
def establish (behave : Behaviour η ω) (now : UInt64) (caller : Entity) (p : Pair)
    (grantee : Option (Entity × List Rule)) (manager : Entity) : Attempt η ω Receipt := do
  let i := (← get).current
  let holder := (grantee.map Prod.fst).getD .burn
  let seen := i.store.holders i.creationPair caller
  if ¬ i.store.isInitialized then
    throw (.initialization .notInitialized)
  if caller.IsReserved then
    throw (.unauthorized caller .createPermissions p)
  let value (e : Entity) : Value := e.id.toBitVec.setWidth 128
  let req : Request :=
    { question := ⟨caller, i.creationPair, [value holder, value p.resource, value manager]⟩
      context := ⟨now, 0⟩ }
  if (← (decide behave req : StateM (World η ω) Decision)) ≠ .granted then
    throw (.unauthorized caller .createPermissions p)
  commit (Transaction.create i.config.resource caller seen p grantee manager)

/-- Performs an operation at a given time. -/
def perform (behave : Behaviour η ω) (now : UInt64) : Operation → Attempt η ω Receipt
  | .bootstrap root => do
      let i := (← get).current
      MonadExcept.ofExcept (requireActor root .root)
      commit (Transaction.bootstrap i.config.resource root now)
  | .freeze => commit Transaction.freeze
  | .create caller grantee p manager rules => do
      let i := (← get).current
      MonadExcept.ofExcept (requireGrantee grantee)
      MonadExcept.ofExcept (requireActor manager .manager)
      MonadExcept.ofExcept (i.acceptRules rules)
      establish behave now caller p (some (grantee, rules)) manager
  | .createBurned caller p => establish behave now caller p none .burn
  | .grant caller grantee p rules => do
      let i := (← get).current
      MonadExcept.ofExcept (requireGrantee grantee)
      MonadExcept.ofExcept (i.acceptRules rules)
      commit (Transaction.grant caller grantee p rules)
  | .revoke caller grantee p => commit (Transaction.revoke caller grantee p)
  | .setManager caller manager p => do
      MonadExcept.ofExcept (requireActor manager .manager)
      commit (Transaction.setManager caller manager p)
  | .removeManager caller p => commit (Transaction.removeManager caller p)
  | .burnManager caller p => commit (Transaction.burnManager caller p)

end World

end DelegatedAccess
