import DelegatedAccess.Role
import DelegatedAccess.Config.Basic
import DelegatedAccess.Rule.Error

/-!
# Errors

Why an operation on an instance fails, what kind of failure that is, and how it is said. The
text of a refusal names the caller, the action and the pair, and does not depend on whether
the pair exists.
-/

namespace DelegatedAccess

/-- What a caller may be refused. -/
inductive Action where
  | createPermissions
  | grant
  | revoke
  | setManager
  | removeManager
  | burnManager
deriving DecidableEq, Repr

/-- An action in words. -/
def Action.phrase : Action → String
  | createPermissions => "create permissions"
  | grant => "grant"
  | revoke => "revoke"
  | setManager => "set manager"
  | removeManager => "remove manager"
  | burnManager => "burn manager"

/-- What a reserved entity was offered as. -/
inductive Usage where
  | root
  | grantee
  | manager
deriving DecidableEq, Repr

/-- A usage in words. -/
def Usage.phrase : Usage → String
  | root => "root"
  | grantee => "grantee"
  | manager => "manager"

/-- How an instance stands in the way of an operation by being initialized or not. -/
inductive InitError where
  | alreadyInitialized
  | frozen
  | notInitialized
  | freezeInitialized
deriving DecidableEq, Repr

/-- The text of an error. -/
def InitError.message : InitError → String
  | alreadyInitialized => "instance is already initialized"
  | frozen => "instance is a frozen template and can never be initialized"
  | notInitialized => "instance is not initialized"
  | freezeInitialized => "an initialized instance cannot be frozen"

/-- Why a rule sequence is not accepted. -/
inductive Rejection where
  | tooMany (count limit : Nat)
  | malformed (error : RuleError)
deriving DecidableEq, Repr

/-- The text of a rejection. -/
def Rejection.message : Rejection → String
  | tooMany count limit => s!"{count} rules exceed the limit of {limit}"
  | malformed error => error.message

/-- Why an operation fails. -/
inductive AccessError where
  | unauthorized (caller : Entity) (action : Action) (pair : Pair)
  | managerExists (pair : Pair)
  | configuration (error : RuleError)
  | initialization (error : InitError)
  | reservedEntity (entity : Entity) (usage : Usage)
  | invalidRules (rejection : Rejection)
  /-- A stored manager is too short to be read. -/
  | storage
  /-- A file cannot be read. -/
  | io
  | config (error : ConfigError)
deriving DecidableEq, Repr

/-- The kinds of failure. -/
inductive ErrorKind where
  | authorization
  | stateConflict
  | configuration
  | initialization
  | invalidInput
  | storage
  | config
deriving DecidableEq, Repr

namespace AccessError

/-- The kind of a failure. -/
def kind : AccessError → ErrorKind
  | unauthorized .. => .authorization
  | managerExists _ => .stateConflict
  | configuration _ => .configuration
  | initialization _ => .initialization
  | reservedEntity .. => .invalidInput
  | invalidRules _ => .invalidInput
  | storage => .storage
  | io => .storage
  | config _ => .config

/-- The text of an error. It quotes the cause if the storage, a file or the text of a configuration
is at fault. -/
def message (e : AccessError) (cause : String := "") : String :=
  match e with
  | unauthorized caller action pair =>
      s!"{caller.label} is not allowed to {action.phrase} " ++
        s!"on {pair.resource.label} for {pair.role.label}"
  | managerExists pair =>
      s!"permission {pair.role.label} on {pair.resource.label} is already managed"
  | configuration error => error.message
  | initialization error => error.message
  | reservedEntity entity usage =>
      s!"reserved entity {entity.label} cannot be used as {usage.phrase}"
  | invalidRules rejection => s!"invalid rules: {rejection.message}"
  | storage => s!"storage error: {cause}"
  | io => s!"io error: {cause}"
  | config error => s!"config error: {error.message cause}"

end AccessError

end DelegatedAccess
