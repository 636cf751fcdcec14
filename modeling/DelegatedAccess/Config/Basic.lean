import DelegatedAccess.Entity

/-!
# Configurations

The settings of an instance: the resource on which the creation capability is granted, the
size of the storage, and the limits on rule sequences. The resource must not be reserved and
the limits must be positive.
-/

namespace DelegatedAccess

/-- The settings of an instance. -/
structure Config where
  /-- The resource of the instance itself, on which the creation capability is granted. -/
  resource : Resource := ⟨1⟩
  /-- The size of the storage in bytes. -/
  mapSize : UInt64 := 1073741824
  /-- The length of the longest rule sequence that is accepted. -/
  maxRules : UInt64 := 256
  /-- The depth of the deepest rule that is evaluated. -/
  maxDepth : UInt64 := 64
deriving DecidableEq, Repr

/-- What is wrong with a configuration. -/
inductive ConfigError where
  | reservedResource (resource : Resource)
  | zeroLimit
  /-- The text of the configuration cannot be read. -/
  | unreadable
deriving DecidableEq, Repr

/-- The text of an error. If the text of a configuration cannot be read, it is the cause that its
reader gives. -/
def ConfigError.message (e : ConfigError) (cause : String := "") : String :=
  match e with
  | reservedResource r => s!"acl_resource {r.label} is a reserved entity"
  | zeroLimit => "max_rules and max_eval_depth must be positive"
  | unreadable => cause

/-- Whether a configuration can be used, and otherwise what is wrong with it. -/
def Config.validate (c : Config) : Except ConfigError Unit :=
  if c.resource.IsReserved then .error (.reservedResource c.resource)
  else if c.maxRules = 0 ∨ c.maxDepth = 0 then .error .zeroLimit
  else .ok ()

end DelegatedAccess
