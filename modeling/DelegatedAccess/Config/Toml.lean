import DelegatedAccess.Config.Basic
import DelegatedAccess.Error
import DelegatedAccess.Toml.Document

/-!
# Configurations in TOML

A configuration is read from the integers under four keys at the root of a TOML document.
What is not given has its usual value, and all other keys are ignored.
-/

namespace DelegatedAccess.Config

/-- The number of 64 bits under a key, if there is one there. -/
def word? (root : Toml.Table) (key : String) (usual : UInt64) : Except ConfigError UInt64 :=
  match root.entries.lookup key with
  | none => .ok usual
  | some (.integer n) =>
      if 0 ≤ n ∧ n < UInt64.size then .ok (UInt64.ofNat n.toNat) else .error .unreadable
  | some _ => .error .unreadable

/-- The configuration that a document describes, usable or not. -/
def ofTable (root : Toml.Table) : Except ConfigError Config := do
  let usual : Config := {}
  let resource ← word? root "acl_resource" usual.resource.id
  let mapSize ← word? root "map_size" usual.mapSize
  let maxRules ← word? root "max_rules" usual.maxRules
  let maxDepth ← word? root "max_eval_depth" usual.maxDepth
  return { resource := ⟨resource⟩, mapSize, maxRules, maxDepth }

/-- The usable configuration that a text describes. -/
def ofToml (text : String) : Except ConfigError Config := do
  match Toml.parse text with
  | none => throw .unreadable
  | some root =>
      let c ← ofTable root
      c.validate
      return c

/-- The usable configuration that a file describes, given the text of the file if it can be
read. -/
def ofFile (text : Option String) : Except AccessError Config :=
  match text with
  | none => .error .io
  | some text => (ofToml text).mapError .config

end DelegatedAccess.Config
