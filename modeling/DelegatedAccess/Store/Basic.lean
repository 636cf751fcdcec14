import DelegatedAccess.Decimal
import DelegatedAccess.Error
import DelegatedAccess.Grant
import DelegatedAccess.Store.Key
import DelegatedAccess.Store.Table

/-!
# Stores

A store holds the grants, the managers of pairs, the rule sequences that grants refer to, and
what is known of the instance as a whole. It holds bytes and texts, which may have been
damaged from outside: a value that is no grant counts as no grant, a manager too short to be
read is an error, and so is a rule sequence that is missing or not a whole number of rules.
-/

namespace DelegatedAccess

/-- What an instance keeps. -/
structure Store where
  /-- The grants, under the keys of pairs and entities. -/
  grants : Table Bytes
  /-- The managers, under the keys of pairs. -/
  managers : Table Bytes
  /-- The rule sequences, under the references to them. -/
  rules : Table Bytes
  /-- The root, the time of initialization, and whether the store is frozen. -/
  about : Table String
deriving DecidableEq

namespace Store

/-- The store that holds nothing. -/
def empty : Store :=
  ⟨.empty, .empty, .empty, .empty⟩

/-! ### Initialization -/

/-- The key of the root. -/
def rootKey : Bytes := utf8 "root"

/-- The key of the time of initialization. -/
def initializedAtKey : Bytes := utf8 "initialized_at"

/-- The key of the mark of a template. -/
def frozenKey : Bytes := utf8 "frozen"

/-- A store is initialized when it names a root, readable or not. -/
def isInitialized (s : Store) : Bool :=
  s.about.contains rootKey

/-- A store is frozen when it carries the mark of a template. -/
def isFrozen (s : Store) : Bool :=
  s.about.contains frozenKey

/-- The root of a store. -/
def root? (s : Store) : Option Entity :=
  (s.about.get? rootKey).bind fun text => (Decimal.read? text).map Entity.mk

/-- The time at which a store was initialized, in seconds since 1970. -/
def initializedAt? (s : Store) : Option UInt64 :=
  (s.about.get? initializedAtKey).bind Decimal.read?

/-! ### Grants -/

/-- The grant of a pair to an entity. -/
def grant? (s : Store) (p : Pair) (e : Entity) : Option Grant :=
  (s.grants.get? (p.grantKey e)).bind Grant.decode?

/-- The grants of a pair, in the order of their entities. -/
def grantees (s : Store) (p : Pair) : List (Entity × Grant) :=
  (s.grants.withPrefix p.key).filterMap fun (k, v) => do
    let e ← Entity.ofGrantKey? k
    let g ← Grant.decode? v
    return (e, g)

/-- The grants of a pair that count for an entity, with their holders: its own grant, then
the grant to every entity. -/
def holders (s : Store) (p : Pair) (e : Entity) : List (Entity × Grant) :=
  let candidates := if e = .any then [e] else [e, .any]
  candidates.filterMap fun h => (s.grant? p h).map (h, ·)

/-! ### Rule sequences -/

/-- Whether a rule sequence is stored. -/
def containsRules (s : Store) (r : RuleRef) : Bool :=
  s.rules.contains r.bytes

/-- The stored rule sequence that a reference refers to. -/
def loadRules (s : Store) (r : RuleRef) : Except RuleError (List Rule) :=
  match s.rules.get? r.bytes with
  | none => .error (.missingRules r)
  | some bs =>
      match Rule.decodeAll? bs with
      | none => .error (.corrupted r)
      | some rules => .ok rules

/-- The rule sequence that gates a grant. A grant without conditions has the empty one. -/
def gate (s : Store) (g : Grant) : Except RuleError (List Rule) :=
  match g with
  | .unconditional => .ok []
  | .conditional r => s.loadRules r

/-- The rule sequence that gates the grant of a pair to an entity. Without a grant it is the
empty one. -/
def rulesOf (s : Store) (p : Pair) (e : Entity) : Except AccessError (List Rule) :=
  match s.grant? p e with
  | none => .ok []
  | some g => (s.gate g).mapError .configuration

/-! ### Managers -/

/-- The manager of a pair. -/
def manager? (s : Store) (p : Pair) : Except AccessError (Option Entity) :=
  match s.managers.get? p.key with
  | none => .ok none
  | some bs => if bs.length < 8 then .error .storage else .ok (some (Entity.ofBytes (bs.take 8)))

/-- Refuses any operation on a store that is not initialized. -/
def requireInitialized (s : Store) : Except AccessError Unit :=
  if s.isInitialized then .ok () else .error (.initialization .notInitialized)

/-- Refuses an action on a pair to all but its manager. A reserved entity is refused even
when it is the manager. -/
def requireManager (s : Store) (caller : Entity) (p : Pair) (action : Action) :
    Except AccessError Unit := do
  s.requireInitialized
  if caller.IsReserved then
    throw (.unauthorized caller action p)
  if (← s.manager? p) ≠ some caller then
    throw (.unauthorized caller action p)

end Store

end DelegatedAccess
