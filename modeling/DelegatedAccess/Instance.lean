import DelegatedAccess.Decision
import DelegatedAccess.Transaction

/-!
# Instances

An instance is a store under a configuration, with the oracles registered for it and the
sinks that receive its events. A transaction that succeeds replaces the store and publishes
its events, each to every sink; one that fails changes nothing.

An instance runs in a world, together with the state of its host. An oracle is registered as
a handle of the host, and how the host answers through a handle is a parameter of whatever
may ask. An answer may change the world, the instance included: an oracle may operate on the
instance that consults it.
-/

namespace DelegatedAccess

/-- A receiver of events. -/
structure Sink where
  name : String
  /-- The events received, in order. -/
  events : List Event
deriving DecidableEq, Repr

/-- A store in use. The oracles are handles of type `η`. -/
structure Instance (η : Type) where
  store : Store
  config : Config
  /-- The handles registered for entities, the latest first. -/
  oracles : List (Entity × η)
  /-- The sinks, in the order in which they were added. -/
  sinks : List Sink

/-- Whether a rule sequence is accepted under a configuration: it must be within the limit and
well structured. -/
def Config.acceptRules (c : Config) (rules : List Rule) : Except AccessError Unit :=
  if c.maxRules.toNat < rules.length then
    .error (.invalidRules (.tooMany rules.length c.maxRules.toNat))
  else (Rule.checkStructure rules).mapError fun e => .invalidRules (.malformed e)

namespace Instance

variable {η : Type}

/-- Puts a store to use, without oracles and sinks. The configuration must be usable. -/
def start (config : Config) (s : Store) : Except AccessError (Instance η) :=
  match config.validate with
  | .error e => .error (.config e)
  | .ok () => .ok ⟨s, config, [], []⟩

/-- Gives events to every sink. -/
def publish (i : Instance η) (events : List Event) : Instance η :=
  { i with sinks := i.sinks.map fun k => { k with events := k.events ++ events } }

/-- Runs a transaction. -/
def commit (i : Instance η) (t : Transaction) : Except AccessError (Receipt × Instance η) :=
  match t i.store with
  | .error e => .error e
  | .ok d => .ok (d.receipt, { i with store := d.store }.publish d.receipt.events)

/-- Puts a store to use as a template. -/
def startTemplate (config : Config) (s : Store) : Except AccessError (Instance η) := do
  let i ← start config s
  let (_, frozen) ← i.commit Transaction.freeze
  return frozen

/-- Registers an oracle for an entity, in place of any other. -/
def register (i : Instance η) (e : Entity) (handle : η) : Instance η :=
  { i with oracles := (e, handle) :: i.oracles }

/-- The handle registered for an entity. -/
def oracle? (i : Instance η) (e : Entity) : Option η :=
  i.oracles.lookup e

/-- Adds a sink that has received nothing. -/
def addSink (i : Instance η) (name : String) : Instance η :=
  { i with sinks := i.sinks ++ [⟨name, []⟩] }

/-- The pair of the creation capability of an instance. -/
def creationPair (i : Instance η) : Pair :=
  Transaction.creationPair i.config.resource

/-- Whether a rule sequence is accepted. -/
def acceptRules (i : Instance η) (rules : List Rule) : Except AccessError Unit :=
  i.config.acceptRules rules

end Instance

/-- An instance, and the state of its host. -/
structure World (η ω : Type) where
  current : Instance η
  host : ω

namespace World

variable {η ω : Type}

/-- How a host answers through its handles. -/
abbrev Behaviour (η ω : Type) := η → Oracle (World η ω)

/-- The oracles registered with an instance. -/
def panel (behave : Behaviour η ω) (i : Instance η) : Panel (World η ω) :=
  fun e => (i.oracle? e).map behave

/-- Runs a transaction on the instance of the world. -/
def commit (t : Transaction) : ExceptT AccessError (StateM (World η ω)) Receipt := do
  match (← get).current.commit t with
  | .error e => throw e
  | .ok (receipt, next) =>
      modify fun w => { w with current := next }
      return receipt

/-- The decision on a request by the grants of a pair to an entity, and the grants that were
looked at. What is decided on is read before any oracle is asked. -/
def decide (behave : Behaviour η ω) (req : Request) : StateM (World η ω) Decision := do
  let i := (← get).current
  let gates := (i.store.holders req.question.pair req.question.who).map fun h => i.store.gate h.2
  Decision.byGates (panel behave i) req i.config.maxDepth.toNat gates

end World

end DelegatedAccess
