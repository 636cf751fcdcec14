import DelegatedAccess.Operation

/-!
# The four kinds of operations

An operation initializes the instance, makes it a template, creates a pair, or is a task for
the manager of a pair. The two creations differ only in what they grant and to whom, and the
five tasks only in what they do with the pair. Whatever its kind, an operation screens its
input, has a request decided if it is a creation, and then runs one transaction. `Drafted`
says which drafts the transactions of each kind make and when.
-/

namespace DelegatedAccess

/-! ### Tasks -/

/-- What the manager of a pair can do with it. -/
inductive Task where
  | grant (grantee : Entity) (rules : List Rule)
  | revoke (grantee : Entity)
  | setManager (manager : Entity)
  | removeManager
  | burnManager

namespace Task

/-- What is refused to all but the manager. -/
def action : Task → Action
  | grant .. => .grant
  | revoke _ => .revoke
  | setManager _ => .setManager
  | removeManager => .removeManager
  | burnManager => .burnManager

/-- What a task makes of a draft. -/
def draft (p : Pair) (d : Draft) : Task → Draft
  | grant e rules => d.install p e rules
  | revoke e => d.clearGrant p e
  | setManager m => d.setManager p m
  | removeManager => d.clearManager p
  | burnManager => d.setManager p .burn

/-- Whether the input of a task is taken under a configuration. -/
def screen (config : Config) : Task → Except AccessError Unit
  | grant e rules => do
      World.requireGrantee e
      config.acceptRules rules
  | setManager m => World.requireActor m .manager
  | _ => .ok ()

/-- The transaction of a task. -/
def transaction (task : Task) (caller : Entity) (p : Pair) : Transaction := fun s => do
  s.requireManager caller p task.action
  return task.draft p (Draft.start s)

end Task

/-! ### Creations -/

/-- What is asked for when a pair is created. -/
structure Creation where
  caller : Entity
  pair : Pair
  /-- Who is granted the pair under which rule sequence, if anybody is. -/
  grantee : Option (Entity × List Rule)
  manager : Entity

namespace Creation

/-- Whether the input of a creation is taken under a configuration. -/
def screen (config : Config) (c : Creation) : Except AccessError Unit :=
  match c.grantee with
  | none => .ok ()
  | some (e, rules) => do
      World.requireGrantee e
      World.requireActor c.manager .manager
      config.acceptRules rules

/-- The request on which a creation depends. -/
def request (c : Creation) (resource : Resource) (now : UInt64) : Request :=
  let value (e : Entity) : Value := e.id.toBitVec.setWidth 128
  let holder := (c.grantee.map Prod.fst).getD .burn
  { question := ⟨c.caller, Transaction.creationPair resource,
      [value holder, value c.pair.resource, value c.manager]⟩
    context := ⟨now, 0⟩ }

/-- What a creation makes of a draft. -/
def draft (c : Creation) (d : Draft) : Draft :=
  (match c.grantee with
    | none => d
    | some (e, rules) => d.install c.pair e rules).setManager c.pair c.manager

end Creation

/-! ### Kinds -/

/-- What kind of change an operation asks for. -/
inductive Operation.Kind where
  | bootstrap (root : Entity)
  | freeze
  | create (creation : Creation)
  | manage (caller : Entity) (pair : Pair) (task : Task)

namespace Operation

/-- The kind of an operation. -/
def kind : Operation → Kind
  | .bootstrap root => .bootstrap root
  | .freeze => .freeze
  | .create caller e p m rules => .create ⟨caller, p, some (e, rules), m⟩
  | .createBurned caller p => .create ⟨caller, p, none, .burn⟩
  | .grant caller e p rules => .manage caller p (.grant e rules)
  | .revoke caller e p => .manage caller p (.revoke e)
  | .setManager caller m p => .manage caller p (.setManager m)
  | .removeManager caller p => .manage caller p .removeManager
  | .burnManager caller p => .manage caller p .burnManager

/-- Whether the input of an operation is taken under a configuration. -/
def Kind.screen (config : Config) : Kind → Except AccessError Unit
  | .bootstrap root => World.requireActor root .root
  | .freeze => .ok ()
  | .create c => c.screen config
  | .manage _ _ task => task.screen config

/-- The input of an operation is well formed when no reserved entity is where it may not be,
and when rule sequences are well structured. -/
def Kind.IsWellFormed : Kind → Prop
  | .bootstrap root => ¬ root.IsReserved
  | .freeze => True
  | .create c =>
      match c.grantee with
      | none => c.manager = .burn
      | some (e, rules) =>
          e ≠ .burn ∧ ¬ c.manager.IsReserved ∧ Rule.checkStructure rules = .ok ()
  | .manage _ _ (.grant e rules) => e ≠ .burn ∧ Rule.checkStructure rules = .ok ()
  | .manage _ _ (.setManager m) => ¬ m.IsReserved
  | .manage .. => True

end Operation

/-! ### Screened input -/

/-- A rule sequence that is accepted is well structured. -/
theorem Config.checkStructure_of_acceptRules {c : Config} {rules : List Rule}
    (h : c.acceptRules rules = .ok ()) :
  Rule.checkStructure rules = .ok ()
  := by
  rw [acceptRules] at h
  split at h
  · contradiction
  · cases hcheck : Rule.checkStructure rules with
    | error e =>
        rw [hcheck] at h
        contradiction
    | ok _ => rfl

/-- An entity that may be granted something is not the one that stands for none. -/
theorem ne_burn_of_requireGrantee {e : Entity} (h : World.requireGrantee e = .ok ()) :
  e ≠ .burn
  := by
  rintro rfl
  contradiction

/-- An actor is no reserved entity. -/
theorem not_isReserved_of_requireActor {e : Entity} {usage : Usage}
    (h : World.requireActor e usage = .ok ()) :
  ¬ e.IsReserved
  := by
  intro hreserved
  rw [World.requireActor, if_pos hreserved] at h
  contradiction

/-- A bind of two screenings accepts when both do. -/
theorem bind_eq_ok_iff {x y : Except AccessError Unit} :
  (do x; y : Except AccessError Unit) = .ok () ↔ x = .ok () ∧ y = .ok ()
  := by
  cases x with
  | error e =>
      constructor
      · intro h
        contradiction
      · rintro ⟨h, _⟩
        contradiction
  | ok _ =>
      constructor
      · intro h
        exact ⟨rfl, h⟩
      · rintro ⟨_, h⟩
        exact h

/-- Input that is taken is well formed. -/
theorem Operation.isWellFormed_kind {config : Config} {op : Operation}
    (h : op.kind.screen config = .ok ()) :
  op.kind.IsWellFormed
  := by
  cases op with
  | bootstrap root => apply not_isReserved_of_requireActor h
  | create caller e p m rules =>
      obtain ⟨he, h⟩ := bind_eq_ok_iff.mp h
      obtain ⟨hm, hrules⟩ := bind_eq_ok_iff.mp h
      exact ⟨ne_burn_of_requireGrantee he, not_isReserved_of_requireActor hm,
        Config.checkStructure_of_acceptRules hrules⟩
  | grant caller e p rules =>
      obtain ⟨he, hrules⟩ := bind_eq_ok_iff.mp h
      exact ⟨ne_burn_of_requireGrantee he, Config.checkStructure_of_acceptRules hrules⟩
  | setManager caller m p => apply not_isReserved_of_requireActor h
  | createBurned caller p => rfl
  | freeze => trivial
  | revoke caller e p => trivial
  | removeManager caller p => trivial
  | burnManager caller p => trivial

/-! ### Drafts -/

/-- The drafts that the transactions of each kind of operation make of a store, on an instance
with a given resource. -/
inductive Drafted (resource : Resource) (s : Store) : Operation.Kind → Draft → Prop
  | bootstrap (root : Entity) (now : UInt64) (hfrozen : s.isFrozen = false)
      (hinitialized : s.isInitialized = false) :
      Drafted resource s (.bootstrap root)
        ((((Draft.start s).setGrant (Transaction.creationPair resource) root none).setManager
          (Transaction.creationPair resource) root).markInitialized root now)
  | freeze (hfrozen : s.isFrozen = false) (hinitialized : s.isInitialized = false) :
      Drafted resource s .freeze (Draft.start s).markFrozen
  | refreeze (hfrozen : s.isFrozen = true) : Drafted resource s .freeze (Draft.start s)
  | create (c : Creation) (hinitialized : s.isInitialized = true)
      (hcaller : ¬ c.caller.IsReserved) (hfree : s.manager? c.pair = .ok none) :
      Drafted resource s (.create c) (c.draft (Draft.start s))
  | manage (caller : Entity) (p : Pair) (task : Task) (hinitialized : s.isInitialized = true)
      (hcaller : ¬ caller.IsReserved) (hmanager : s.manager? p = .ok (some caller)) :
      Drafted resource s (.manage caller p task) (task.draft p (Draft.start s))

/-! ### Transactions -/

namespace Store

/-- Which refusal an action on a pair meets first. -/
theorem requireManager_eq (s : Store) (caller : Entity) (p : Pair) (a : Action) :
  s.requireManager caller p a =
    if s.isInitialized = false then .error (.initialization .notInitialized)
    else if caller.IsReserved then .error (.unauthorized caller a p)
    else match s.manager? p with
      | .error e => .error e
      | .ok m => if m = some caller then .ok () else .error (.unauthorized caller a p)
  := by
  rw [requireManager, requireInitialized]
  cases s.isInitialized with
  | false => rfl
  | true =>
      by_cases hcaller : caller.IsReserved
      · rw [if_pos hcaller, if_pos hcaller]
        rfl
      · rw [if_neg hcaller, if_neg hcaller]
        cases s.manager? p with
        | error e => rfl
        | ok m =>
            change (if m ≠ some caller then _ else _) = if m = some caller then _ else _
            rw [ite_not]
            rfl

/-- An action on a pair is for its manager, on an initialized store. -/
theorem requireManager_eq_ok_iff {s : Store} {caller : Entity} {p : Pair} {a : Action} :
  s.requireManager caller p a = .ok ()
    ↔ s.isInitialized = true ∧ ¬ caller.IsReserved ∧ s.manager? p = .ok (some caller)
  := by
  rw [requireManager_eq]
  cases s.isInitialized <;> cases s.manager? p <;> grind

end Store

namespace Transaction

/-- Initialization meets the mark of a template before that of an initialized store. -/
theorem bootstrap_eq (resource : Resource) (root : Entity) (now : UInt64) (s : Store) :
  bootstrap resource root now s =
    if s.isFrozen = true then .error (.initialization .frozen)
    else if s.isInitialized = true then .error (.initialization .alreadyInitialized)
    else .ok ((((Draft.start s).setGrant (creationPair resource) root none).setManager
      (creationPair resource) root).markInitialized root now)
  := by
  rw [bootstrap]
  cases s.isFrozen <;> cases s.isInitialized <;> rfl

/-- Only a store that is not initialized can be made a template. -/
theorem freeze_eq (s : Store) :
  freeze s =
    if s.isFrozen = true then .ok (Draft.start s)
    else if s.isInitialized = true then .error (.initialization .freezeInitialized)
    else .ok (Draft.start s).markFrozen
  := by
  rw [freeze]
  cases s.isFrozen <;> cases s.isInitialized <;> rfl

/-- The transaction of a creation makes sure of the grants that were seen before it looks for
a manager. -/
theorem create_eq (resource : Resource) (c : Creation) (seen : List (Entity × Grant))
    (s : Store) :
  create resource c.caller seen c.pair c.grantee c.manager s =
    if s.isInitialized = false then .error (.initialization .notInitialized)
    else if s.holders (creationPair resource) c.caller ≠ seen then
      .error (.unauthorized c.caller .createPermissions c.pair)
    else match s.manager? c.pair with
      | .error e => .error e
      | .ok (some _) => .error (.managerExists c.pair)
      | .ok none => .ok (c.draft (Draft.start s))
  := by
  unfold create Store.requireInitialized
  cases s.isInitialized with
  | false => rfl
  | true =>
      by_cases hseen : s.holders (creationPair resource) c.caller ≠ seen
      · rw [if_pos hseen, if_pos hseen]
        rfl
      · rw [if_neg hseen, if_neg hseen]
        cases s.manager? c.pair with
        | error e => rfl
        | ok m => cases m <;> rfl

end Transaction

/-- A task is for the manager of its pair. -/
theorem Task.transaction_eq (task : Task) (caller : Entity) (p : Pair) (s : Store) :
  task.transaction caller p s =
    match s.requireManager caller p task.action with
    | .error e => .error e
    | .ok () => .ok (task.draft p (Draft.start s))
  := by
  rw [transaction]
  cases s.requireManager caller p task.action <;> rfl

/-! ### Which drafts transactions make -/

/-- Initialization makes a draft of a fresh store. -/
theorem drafted_of_bootstrap {resource : Resource} {root : Entity} {now : UInt64} {s : Store}
    {d : Draft} (h : Transaction.bootstrap resource root now s = .ok d) :
  Drafted resource s (.bootstrap root) d
  := by
  rw [Transaction.bootstrap_eq] at h
  split at h
  · contradiction
  next hfrozen =>
    split at h
    · contradiction
    next hinitialized =>
      obtain rfl := Except.ok.inj h
      apply Drafted.bootstrap root now (Bool.eq_false_iff.mpr hfrozen)
        (Bool.eq_false_iff.mpr hinitialized)

/-- A template is made of a store that is not initialized. -/
theorem drafted_of_freeze {resource : Resource} {s : Store} {d : Draft}
    (h : Transaction.freeze s = .ok d) :
  Drafted resource s .freeze d
  := by
  rw [Transaction.freeze_eq] at h
  split at h
  next hfrozen =>
    obtain rfl := Except.ok.inj h
    apply Drafted.refreeze hfrozen
  next hfrozen =>
    split at h
    · contradiction
    next hinitialized =>
      obtain rfl := Except.ok.inj h
      apply Drafted.freeze (Bool.eq_false_iff.mpr hfrozen) (Bool.eq_false_iff.mpr hinitialized)

/-- A creation makes a draft of a store in which its pair has no manager. -/
theorem drafted_of_create {resource : Resource} {c : Creation} {seen : List (Entity × Grant)}
    {s : Store} {d : Draft} (hcaller : ¬ c.caller.IsReserved)
    (h : Transaction.create resource c.caller seen c.pair c.grantee c.manager s = .ok d) :
  Drafted resource s (.create c) d
  := by
  rw [Transaction.create_eq] at h
  split at h
  · contradiction
  next hinitialized =>
    split at h
    · contradiction
    · split at h
      · contradiction
      · contradiction
      next hfree =>
        obtain rfl := Except.ok.inj h
        apply Drafted.create c (Bool.not_eq_false _ ▸ hinitialized) hcaller hfree

/-- A task makes a draft of a store in which the caller manages the pair. -/
theorem drafted_of_task {resource : Resource} {task : Task} {caller : Entity} {p : Pair}
    {s : Store} {d : Draft} (h : task.transaction caller p s = .ok d) :
  Drafted resource s (.manage caller p task) d
  := by
  rw [Task.transaction_eq] at h
  split at h
  · contradiction
  next hmanager =>
    obtain rfl := Except.ok.inj h
    obtain ⟨hinitialized, hcaller, hmanager⟩ := Store.requireManager_eq_ok_iff.mp hmanager
    apply Drafted.manage caller p task hinitialized hcaller hmanager

end DelegatedAccess
