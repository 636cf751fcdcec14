import DelegatedAccess.Instance

/-!
# Queries

What can be asked of an instance. A query changes nothing itself, though the oracles asked
on its behalf may.
-/

namespace DelegatedAccess

/-- What an instance is. -/
structure Status where
  initialized : Bool
  frozen : Bool
  root : Option Entity
  initializedAt : Option UInt64
  /-- The resource of the instance itself. -/
  resource : Resource
deriving DecidableEq, Repr

/-- A question to an instance. -/
inductive Query where
  | status
  | config
  /-- May an entity exercise a role, now and at height zero? -/
  | has (entity : Entity) (pair : Pair) (args : List Value)
  /-- What is decided on a request? -/
  | check (request : Request)
  /-- Who manages a pair? -/
  | manager (pair : Pair)
  /-- What is an entity itself granted? -/
  | grant (entity : Entity) (pair : Pair)
  /-- How many rules gate the grant to an entity? -/
  | ruleCount (entity : Entity) (pair : Pair)
  /-- Which rule is at an index of those that gate the grant to an entity? -/
  | rule (entity : Entity) (pair : Pair) (index : Nat)
  /-- Who is granted a pair, and how? -/
  | grantees (pair : Pair)
deriving DecidableEq, Repr

/-- The answer to a question. -/
inductive Answer where
  | status (status : Status)
  | config (config : Config)
  | truth (holds : Bool)
  | decision (decision : Decision)
  | manager (manager : Option Entity)
  | grant (grant : Option Grant)
  | count (count : Nat)
  | rule (rule : Option Rule)
  | grantees (grantees : List (Entity × Grant))
deriving DecidableEq, Repr

/-- What an instance is. -/
def Instance.status {η : Type} (i : Instance η) : Status :=
  { initialized := i.store.isInitialized
    frozen := i.store.isFrozen
    root := i.store.root?
    initializedAt := i.store.initializedAt?
    resource := i.config.resource }

namespace World

variable {η ω : Type}

/-- What is read from the store of the instance. -/
def stored {α : Type} (read : Store → Except AccessError α) :
    ExceptT AccessError (StateM (World η ω)) α := do
  MonadExcept.ofExcept (read (← get).current.store)

/-- Answers a question at a given time. -/
def answer (behave : Behaviour η ω) (now : UInt64) :
    Query → ExceptT AccessError (StateM (World η ω)) Answer
  | .status => return .status (← get).current.status
  | .config => return .config (← get).current.config
  | .has e p args => do
      let d ← (decide behave ⟨⟨e, p, args⟩, ⟨now, 0⟩⟩ : StateM (World η ω) Decision)
      return .truth (d = .granted)
  | .check req => return .decision (← (decide behave req : StateM (World η ω) Decision))
  | .manager p => return .manager (← stored (·.manager? p))
  | .grant e p => return .grant (← stored fun s => .ok (s.grant? p e))
  | .ruleCount e p => return .count (← stored (·.rulesOf p e)).length
  | .rule e p index => return .rule (← stored (·.rulesOf p e))[index]?
  | .grantees p => return .grantees (← stored fun s => .ok (s.grantees p))

end World

end DelegatedAccess
