import DelegatedAccess.Proofs.Operation
import DelegatedAccess.Proofs.Store.Change
import Mathlib.Logic.Relation

/-!
# Steps of a store

What a store becomes when one operation with well-formed input is done on it. `Store.Step`
says so in terms of the six changes of a store, and leaves out what transactions count and
announce.
-/

namespace DelegatedAccess

/-! ### The stores of drafts -/

namespace Draft

@[simp] theorem store_start (s : Store) :
  (start s).store = s
  := rfl

/-- A grant is put in. -/
@[simp] theorem store_setGrant (d : Draft) (p : Pair) (e : Entity) (ref : Option RuleRef) :
  (d.setGrant p e ref).store = d.store.putGrant p e (Grant.ofRef ref)
  := rfl

/-- A grant is taken out, if there is one. -/
@[simp] theorem store_clearGrant (d : Draft) (p : Pair) (e : Entity) :
  (d.clearGrant p e).store = d.store.eraseGrant p e
  := by
  rw [clearGrant]
  split
  · rfl
  next h =>
    rw [Table.contains, Option.not_isSome_iff_eq_none] at h
    have hsame : d.store.grants.erase (p.grantKey e) = d.store.grants := by
      apply Table.ext_get?
      intro k
      rw [Table.get?_erase]
      split
      next hk => rw [hk, h]
      next => rfl
    rw [Store.eraseGrant, hsame]

/-- A manager is put in. -/
@[simp] theorem store_setManager (d : Draft) (p : Pair) (m : Entity) :
  (d.setManager p m).store = d.store.putManager p m
  := rfl

/-- A manager is taken out. -/
@[simp] theorem store_clearManager (d : Draft) (p : Pair) :
  (d.clearManager p).store = d.store.eraseManager p
  := rfl

/-- A rule sequence is put in, if it is new. -/
@[simp] theorem store_storeRules (d : Draft) (rules : List Rule) :
  (d.storeRules rules).store = d.store.addRules rules
  := by
  rw [storeRules, Store.addRules]
  split <;> rfl

/-- A grant under a rule sequence is put in, with the sequence. -/
@[simp] theorem store_install (d : Draft) (p : Pair) (e : Entity) (rules : List Rule) :
  (d.install p e rules).store = d.store.putGate p e rules
  := by
  rw [install, Store.putGate]
  split
  · rfl
  · rw [← store_storeRules]
    dsimp only
    split <;> rfl

/-- The root and the time of initialization are noted. -/
@[simp] theorem store_markInitialized (d : Draft) (root : Entity) (now : UInt64) :
  (d.markInitialized root now).store =
    (d.store.putAbout Store.rootKey (Decimal.write root.id)).putAbout Store.initializedAtKey
      (Decimal.write now)
  := rfl

/-- The mark of a template is noted. -/
@[simp] theorem store_markFrozen (d : Draft) :
  d.markFrozen.store = d.store.putAbout Store.frozenKey "1"
  := rfl

end Draft

/-! ### What operations make of a store -/

/-- What a task makes of a store. -/
def Task.change (p : Pair) (s : Store) : Task → Store
  | grant e rules => s.putGate p e rules
  | revoke e => s.eraseGrant p e
  | setManager m => s.putManager p m
  | removeManager => s.eraseManager p
  | burnManager => s.putManager p .burn

/-- The store of the draft of a task. -/
@[simp] theorem Task.store_draft (task : Task) (p : Pair) (d : Draft) :
  (task.draft p d).store = task.change p d.store
  := by
  cases task with
  | grant e rules => apply Draft.store_install
  | revoke e => apply Draft.store_clearGrant
  | setManager m => rfl
  | removeManager => rfl
  | burnManager => rfl

/-- What a creation makes of a store. -/
def Creation.change (c : Creation) (s : Store) : Store :=
  (match c.grantee with
    | none => s
    | some (e, rules) => s.putGate c.pair e rules).putManager c.pair c.manager

/-- The store of the draft of a creation. -/
@[simp] theorem Creation.store_draft (c : Creation) (d : Draft) :
  (c.draft d).store = c.change d.store
  := by
  rw [draft, change]
  cases c.grantee with
  | none => rfl
  | some g => rw [Draft.store_setManager, Draft.store_install]

namespace Store

/-- The store with a root that holds and manages the creation capability. -/
def bootstrap (s : Store) (resource : Resource) (root : Entity) (now : UInt64) : Store :=
  (((s.putGrant (Transaction.creationPair resource) root .unconditional).putManager
    (Transaction.creationPair resource) root).putAbout rootKey (Decimal.write root.id)).putAbout
      initializedAtKey (Decimal.write now)

/-! ### What operations leave of a store -/

/-- A task for one pair leaves the part of another. -/
theorem part_task_of_ne {p q : Pair} (h : p ≠ q) (task : Task) (s : Store) :
  (task.change q s).part p = s.part p
  := by
  cases task with
  | grant e rules => apply part_putGate_of_ne h
  | revoke e => apply part_eraseGrant_of_ne h
  | setManager m => apply part_putManager_of_ne h
  | removeManager => apply part_eraseManager_of_ne h
  | burnManager => apply part_putManager_of_ne h

/-- The creation of one pair leaves the part of another. -/
theorem part_creation_of_ne {p : Pair} {c : Creation} (h : p ≠ c.pair) (s : Store) :
  (c.change s).part p = s.part p
  := by
  rw [Creation.change, part_putManager_of_ne h]
  cases c.grantee with
  | none => rfl
  | some g => apply part_putGate_of_ne h

/-- Initialization leaves the part of all pairs but that of the creation capability. -/
theorem part_bootstrap_of_ne {p : Pair} {resource : Resource}
    (h : p ≠ Transaction.creationPair resource) (s : Store) (root : Entity) (now : UInt64) :
  (s.bootstrap resource root now).part p = s.part p
  := by
  rw [bootstrap, part_putAbout, part_putAbout, part_putManager_of_ne h, part_putGrant_of_ne h]

/-! ### Steps -/

/-- What an operation with well-formed input makes of a store. -/
inductive Step (s : Store) : Store → Prop
  | bootstrap (resource : Resource) (root : Entity) (now : UInt64) (hroot : ¬ root.IsReserved)
      (hfrozen : s.isFrozen = false) (hinitialized : s.isInitialized = false) :
      Step s (s.bootstrap resource root now)
  | freeze (hfrozen : s.isFrozen = false) (hinitialized : s.isInitialized = false) :
      Step s (s.putAbout frozenKey "1")
  | refreeze (hfrozen : s.isFrozen = true) : Step s s
  | create (c : Creation) (hinput : (Operation.Kind.create c).IsWellFormed)
      (hinitialized : s.isInitialized = true) (hcaller : ¬ c.caller.IsReserved)
      (hfree : s.manager? c.pair = .ok none) :
      Step s (c.change s)
  | manage (caller : Entity) (p : Pair) (task : Task)
      (hinput : (Operation.Kind.manage caller p task).IsWellFormed)
      (hinitialized : s.isInitialized = true) (hcaller : ¬ caller.IsReserved)
      (hmanager : s.manager? p = .ok (some caller)) :
      Step s (task.change p s)

/-- A run of operations on a store. -/
abbrev Steps : Store → Store → Prop :=
  Relation.ReflTransGen Step

end Store

/-- The draft of an operation with well-formed input makes a step. -/
theorem Drafted.step {resource : Resource} {s : Store} {kind : Operation.Kind} {d : Draft}
    (h : Drafted resource s kind d) (hinput : kind.IsWellFormed) :
  s.Step d.store
  := by
  cases h with
  | bootstrap root now hfrozen hinitialized =>
      apply Store.Step.bootstrap resource root now hinput hfrozen hinitialized
  | freeze hfrozen hinitialized => apply Store.Step.freeze hfrozen hinitialized
  | refreeze hfrozen => apply Store.Step.refreeze hfrozen
  | create c hinitialized hcaller hfree =>
      rw [Creation.store_draft]
      apply Store.Step.create c hinput hinitialized hcaller hfree
  | manage caller p task hinitialized hcaller hmanager =>
      rw [Task.store_draft]
      apply Store.Step.manage caller p task hinput hinitialized hcaller hmanager

end DelegatedAccess
