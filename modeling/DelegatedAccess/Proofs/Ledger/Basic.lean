import DelegatedAccess.Proofs.Grant
import DelegatedAccess.Proofs.Run
import Mathlib.Data.Finmap

/-!
# Ledgers

A ledger is what an instance keeps, without bytes, keys and references: whether it is
initialized, who manages each pair, and the rule sequence under which each entity is granted
each pair. The empty sequence is no condition.

Operations and queries on a ledger are said to come to what they should, given a setting: a
configuration, the time, and how requests are decided by rule sequences.
-/

namespace DelegatedAccess

/-- Whether an instance is initialized, and with which root, or a template. -/
inductive Phase where
  | fresh
  | initialized (root : Entity)
  | frozen

/-- What an instance keeps, without the form in which it is kept. -/
structure Ledger where
  phase : Phase
  /-- The managers of the pairs that have one. -/
  managers : Finmap fun _ : Pair => Entity
  /-- The rule sequences under which pairs are granted to entities. -/
  grants : Finmap fun _ : Pair × Entity => List Rule

/-- Under what circumstances something is asked of a ledger. -/
structure Setting where
  config : Config
  now : UInt64
  /-- What is decided on a request by rule sequences, one of which must pass. -/
  decide : Request → List (List Rule) → Decision

/-- The rule sequences supplied with an operation. -/
def Operation.Kind.supplied : Operation.Kind → Set (List Rule)
  | .create c => { rules | ∃ e, c.grantee = some (e, rules) }
  | .manage _ _ (.grant _ rules) => {rules}
  | _ => ∅

/-- The rule sequences supplied with an act. -/
def Act.supplied {η : Type} : Act η → Set (List Rule)
  | .operation op => op.kind.supplied
  | _ => ∅

namespace Ledger

/-- The ledger of the store that holds nothing. -/
def empty : Ledger :=
  ⟨.fresh, ∅, ∅⟩

/-- Whether a ledger is initialized. -/
def isInitialized (l : Ledger) : Bool :=
  match l.phase with
  | .initialized _ => true
  | _ => false

/-- Whether a ledger is that of a template. -/
def isFrozen (l : Ledger) : Bool :=
  match l.phase with
  | .frozen => true
  | _ => false

/-- The root of a ledger. -/
def root? (l : Ledger) : Option Entity :=
  match l.phase with
  | .initialized root => some root
  | _ => none

/-- The rule sequences that count for an entity: that of its own grant, then that of the
grant to every entity. -/
def counting (l : Ledger) (p : Pair) (e : Entity) : List (List Rule) :=
  (if e = .any then [e] else [e, .any]).filterMap fun h => l.grants.lookup (p, h)

/-- The decision on a request. -/
def check (l : Ledger) (setting : Setting) (req : Request) : Decision :=
  setting.decide req (l.counting req.question.pair req.question.who)

/-! ### Operations -/

/-- A ledger is initialized: the root gets the creation capability and manages it. -/
def bootstrap (l : Ledger) (resource : Resource) (root : Entity) : Except AccessError Ledger :=
  match l.phase with
  | .frozen => .error (.initialization .frozen)
  | .initialized _ => .error (.initialization .alreadyInitialized)
  | .fresh =>
      let p := Transaction.creationPair resource
      .ok ⟨.initialized root, l.managers.insert p root, l.grants.insert (p, root) []⟩

/-- A ledger becomes that of a template, unless it is initialized. -/
def freeze (l : Ledger) : Except AccessError Ledger :=
  match l.phase with
  | .frozen => .ok l
  | .initialized _ => .error (.initialization .freezeInitialized)
  | .fresh => .ok { l with phase := .frozen }

/-- A pair is created: for a caller with the creation capability, if it has no manager. -/
def create (l : Ledger) (setting : Setting) (c : Creation) : Except AccessError Ledger :=
  if l.isInitialized = false then .error (.initialization .notInitialized)
  else if c.caller.IsReserved ∨
      l.check setting (c.request setting.config.resource setting.now) ≠ .granted then
    .error (.unauthorized c.caller .createPermissions c.pair)
  else if (l.managers.lookup c.pair).isSome then .error (.managerExists c.pair)
  else
    .ok
      { l with
        managers := l.managers.insert c.pair c.manager
        grants := match c.grantee with
          | none => l.grants
          | some (e, rules) => l.grants.insert (c.pair, e) rules }

/-- What a task does. -/
def task (l : Ledger) (p : Pair) : Task → Ledger
  | .grant e rules => { l with grants := l.grants.insert (p, e) rules }
  | .revoke e => { l with grants := l.grants.erase (p, e) }
  | .setManager m => { l with managers := l.managers.insert p m }
  | .removeManager => { l with managers := l.managers.erase p }
  | .burnManager => { l with managers := l.managers.insert p .burn }

/-- A task is done: for a caller that is a real actor and manages the pair. -/
def manage (l : Ledger) (caller : Entity) (p : Pair) (task : Task) : Except AccessError Ledger :=
  if l.isInitialized = false then .error (.initialization .notInitialized)
  else if caller.IsReserved ∨ l.managers.lookup p ≠ some caller then
    .error (.unauthorized caller task.action p)
  else .ok (l.task p task)

/-- What an operation comes to, once its input is screened. -/
def pursue (l : Ledger) (setting : Setting) : Operation.Kind → Except AccessError Ledger
  | .bootstrap root => l.bootstrap setting.config.resource root
  | .freeze => l.freeze
  | .create c => l.create setting c
  | .manage caller p task => l.manage caller p task

/-- What an operation comes to. -/
def perform (l : Ledger) (setting : Setting) (kind : Operation.Kind) : Except AccessError Ledger :=
  match kind.screen setting.config with
  | .error e => .error e
  | .ok () => l.pursue setting kind

/-- The store of a ledger is opened again, as a template or not. -/
def reopen (l : Ledger) (config : Config) (template : Bool) : Except AccessError Ledger :=
  match config.validate with
  | .error e => .error (.config e)
  | .ok () => if template then l.freeze else .ok l

/-- What an act comes to. Only operations and opening the store again concern the ledger. -/
def act {η : Type} (l : Ledger) (setting : Setting) : Act η → Except AccessError Ledger
  | .operation op => l.perform setting op.kind
  | .reopen config template => l.reopen config template
  | _ => .ok l

/-- The ledger after an act, which is the one before if the act fails. -/
def after {η : Type} (l : Ledger) (setting : Setting) (a : Act η) : Ledger :=
  match l.act setting a with
  | .ok l' => l'
  | .error _ => l

/-! ### Queries -/

/-- The rule sequence of a grant. Without a grant it is the empty one. -/
def rulesOf (l : Ledger) (p : Pair) (e : Entity) : List Rule :=
  (l.grants.lookup (p, e)).getD []

/-- The answers to a question that are right. The time of initialization is not part of a
ledger. The grants of a pair are listed in the order of their entities. -/
def Allows (l : Ledger) (setting : Setting) : Query → Answer → Prop
  | .status, a => ∃ at?,
      a = .status ⟨l.isInitialized, l.isFrozen, l.root?, at?, setting.config.resource⟩
  | .config, a => a = .config setting.config
  | .has e p args, a =>
      a = .truth (l.check setting ⟨⟨e, p, args⟩, ⟨setting.now, 0⟩⟩ = .granted)
  | .check req, a => a = .decision (l.check setting req)
  | .manager p, a => a = .manager (l.managers.lookup p)
  | .grant e p, a => a = .grant ((l.grants.lookup (p, e)).map Grant.under)
  | .ruleCount e p, a => a = .count (l.rulesOf p e).length
  | .rule e p index, a => a = .rule (l.rulesOf p e)[index]?
  | .grantees p, a => ∃ list, a = .grantees list ∧
      (list.Pairwise fun x y => x.1.toNat < y.1.toNat) ∧
      ∀ e g, (e, g) ∈ list ↔ ∃ rules, l.grants.lookup (p, e) = some rules ∧ g = Grant.under rules

end Ledger

end DelegatedAccess
