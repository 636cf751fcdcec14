import DelegatedAccess.Event
import DelegatedAccess.Store.Basic

/-!
# Transactions

A transaction starts from a store and makes a draft of the next one, together with the
receipt of what it does: how many writes it makes, the rule sequence it refers to, and the
events it announces. It either fails and leaves nothing behind, or ends in a draft.

The transactions here are the operations on an instance, from the point where all that may
consult an oracle is done. All but `bootstrap` and `freeze` are for the manager of the pair
alone, or for a caller whose creation capability was found to hold.
-/

namespace DelegatedAccess

/-- What a transaction did. -/
structure Receipt where
  /-- The number of values put in and taken out. -/
  writes : Nat
  /-- The rule sequence referred to. -/
  ref : Option RuleRef
  /-- The changes to announce, in order. -/
  events : List Event
deriving DecidableEq, Repr

/-- A transaction in progress. -/
structure Draft where
  /-- The store as the transaction has changed it. -/
  store : Store
  /-- What the transaction has done. -/
  receipt : Receipt
deriving DecidableEq

namespace Draft

/-- A transaction that has done nothing. -/
def start (s : Store) : Draft :=
  ⟨s, ⟨0, none, []⟩⟩

/-- Makes one write. -/
def write (d : Draft) (store : Store) : Draft :=
  { store, receipt := { d.receipt with writes := d.receipt.writes + 1 } }

/-- Announces a change. -/
def emit (d : Draft) (event : Event) : Draft :=
  { d with receipt := { d.receipt with events := d.receipt.events ++ [event] } }

/-- Notes the rule sequence that the transaction refers to. -/
def refer (d : Draft) (ref : RuleRef) : Draft :=
  { d with receipt := { d.receipt with ref := some ref } }

/-- Installs the grant of a pair to an entity, in place of any other. -/
def setGrant (d : Draft) (p : Pair) (e : Entity) (ref : Option RuleRef) : Draft :=
  let value := (Grant.ofRef ref).encode
  (d.write { d.store with grants := d.store.grants.insert (p.grantKey e) value }).emit
    (.permissionSet e p true ref)

/-- Removes the grant of a pair to an entity. Nothing is done if nothing is stored for it. -/
def clearGrant (d : Draft) (p : Pair) (e : Entity) : Draft :=
  if d.store.grants.contains (p.grantKey e) then
    (d.write { d.store with grants := d.store.grants.erase (p.grantKey e) }).emit
      (.permissionSet e p false none)
  else d

/-- Gives a pair a manager, in place of any other. -/
def setManager (d : Draft) (p : Pair) (manager : Entity) : Draft :=
  (d.write { d.store with managers := d.store.managers.insert p.key manager.bytes }).emit
    (.managerChanged p (some manager))

/-- Takes the manager from a pair. -/
def clearManager (d : Draft) (p : Pair) : Draft :=
  (d.write { d.store with managers := d.store.managers.erase p.key }).emit
    (.managerChanged p none)

/-- Stores a rule sequence, unless something is stored under its reference. -/
def storeRules (d : Draft) (rules : List Rule) : Draft :=
  let ref := RuleRef.of rules
  if d.store.containsRules ref then d
  else
    d.write { d.store with rules := d.store.rules.insert ref.bytes (Rule.encodeAll rules) }

/-- Grants a pair to an entity under a rule sequence, which is stored if it is new. The empty
sequence is no condition and is not stored. -/
def install (d : Draft) (p : Pair) (e : Entity) (rules : List Rule) : Draft :=
  if rules = [] then d.setGrant p e none
  else
    let ref := RuleRef.of rules
    let granted := ((d.storeRules rules).refer ref).setGrant p e (some ref)
    if d.store.containsRules ref then granted
    else granted.emit (.rulesStored e p ref rules.length)

/-- Notes the root and the time of initialization. -/
def markInitialized (d : Draft) (root : Entity) (now : UInt64) : Draft :=
  let named := d.write
    { d.store with about := d.store.about.insert Store.rootKey (Decimal.write root.id) }
  (named.write
    { named.store with
      about := named.store.about.insert Store.initializedAtKey (Decimal.write now) }).emit
    (.initialized root)

/-- Makes the store a template. -/
def markFrozen (d : Draft) : Draft :=
  (d.write { d.store with about := d.store.about.insert Store.frozenKey "1" }).emit .frozen

end Draft

/-- A transaction: it fails, or makes a draft of the next store. -/
abbrev Transaction := Store → Except AccessError Draft

namespace Transaction

/-- The pair of the creation capability on the resource of an instance. -/
def creationPair (resource : Resource) : Pair :=
  ⟨.createPermissions, resource⟩

/-- Initializes a store: the root gets the creation capability and becomes its manager. -/
def bootstrap (resource : Resource) (root : Entity) (now : UInt64) : Transaction := fun s => do
  if s.isFrozen then
    throw (.initialization .frozen)
  if s.isInitialized then
    throw (.initialization .alreadyInitialized)
  let p := creationPair resource
  return (((Draft.start s).setGrant p root none).setManager p root).markInitialized root now

/-- Makes a store a template. Nothing is done to one that is a template already. -/
def freeze : Transaction := fun s => do
  if s.isFrozen then
    return Draft.start s
  if s.isInitialized then
    throw (.initialization .freezeInitialized)
  return (Draft.start s).markFrozen

/-- Creates a pair for a caller that was found to hold the creation capability through the
given grants: the grants must still be those, and the pair must have no manager. The pair is
granted to an entity under a rule sequence, if one is given, and gets its manager. -/
def create (resource : Resource) (caller : Entity) (seen : List (Entity × Grant)) (p : Pair)
    (grantee : Option (Entity × List Rule)) (manager : Entity) : Transaction := fun s => do
  s.requireInitialized
  if s.holders (creationPair resource) caller ≠ seen then
    throw (.unauthorized caller .createPermissions p)
  if (← s.manager? p).isSome then
    throw (.managerExists p)
  let granted := match grantee with
    | none => Draft.start s
    | some (e, rules) => (Draft.start s).install p e rules
  return granted.setManager p manager

/-- Grants a pair to an entity under a rule sequence. -/
def grant (caller e : Entity) (p : Pair) (rules : List Rule) : Transaction := fun s => do
  s.requireManager caller p .grant
  return (Draft.start s).install p e rules

/-- Removes the grant of a pair to an entity. -/
def revoke (caller e : Entity) (p : Pair) : Transaction := fun s => do
  s.requireManager caller p .revoke
  return (Draft.start s).clearGrant p e

/-- Hands a pair over to another manager. -/
def setManager (caller manager : Entity) (p : Pair) : Transaction := fun s => do
  s.requireManager caller p .setManager
  return (Draft.start s).setManager p manager

/-- Takes the manager from a pair, which can then be created again. -/
def removeManager (caller : Entity) (p : Pair) : Transaction := fun s => do
  s.requireManager caller p .removeManager
  return (Draft.start s).clearManager p

/-- Burns the manager of a pair, whose grants then stay as they are. -/
def burnManager (caller : Entity) (p : Pair) : Transaction := fun s => do
  s.requireManager caller p .burnManager
  return (Draft.start s).setManager p .burn

end Transaction

end DelegatedAccess
