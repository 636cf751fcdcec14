import DelegatedAccess.Proofs.Decimal
import DelegatedAccess.Proofs.Ledger.Basic
import DelegatedAccess.Proofs.Rule.Encoding
import DelegatedAccess.Proofs.Store.Grantees

/-!
# Stores represent ledgers

A store represents a ledger when it is in the same phase, names the same managers, and holds
for each entity the grant under the rule sequence of the ledger, all rule sequences being
among some that were supplied. Each change of a store that represents a ledger makes it
represent the ledger with the corresponding change.

The rule sequence of a grant is read back from the store as it was supplied, provided that
different sequences that were supplied have different references.
-/

namespace DelegatedAccess

/-- A store represents a ledger, with rule sequences that are among those supplied. -/
structure Represents (s : Store) (l : Ledger) (supplied : Set (List Rule)) : Prop where
  isInitialized : s.isInitialized = l.isInitialized
  isFrozen : s.isFrozen = l.isFrozen
  root? : s.root? = l.root?
  managers : ∀ p, s.manager? p = .ok (l.managers.lookup p)
  grants : ∀ p e, s.grant? p e = (l.grants.lookup (p, e)).map Grant.under
  granted : ∀ p e rules, l.grants.lookup (p, e) = some rules → rules ≠ [] → rules ∈ supplied
  stored : ∀ k v, s.rules.get? k = some v →
    ∃ rules ∈ supplied, k = (RuleRef.of rules).bytes ∧ v = Rule.encodeAll rules

/-- What is looked up after an insertion. -/
theorem lookup_insert_eq {α β : Type} [DecidableEq α] (m : Finmap fun _ : α => β) (a k : α)
    (b : β) :
  (m.insert a b).lookup k = if k = a then some b else m.lookup k
  := by
  by_cases h : k = a
  · subst h
    rw [if_pos rfl, Finmap.lookup_insert]
  · rw [if_neg h, Finmap.lookup_insert_of_ne m h]

/-- What is looked up after a removal. -/
theorem lookup_erase_eq {α β : Type} [DecidableEq α] (m : Finmap fun _ : α => β) (a k : α) :
  (m.erase a).lookup k = if k = a then none else m.lookup k
  := by
  by_cases h : k = a
  · subst h
    rw [if_pos rfl, Finmap.lookup_erase]
  · rw [if_neg h, Finmap.lookup_erase_ne h]

namespace Store

/-- The rule sequences after a grant under one of them. -/
theorem rules_putGate {s : Store} {p : Pair} {e : Entity} {rules : List Rule} {k v : Bytes}
    (h : (s.putGate p e rules).rules.get? k = some v) :
  s.rules.get? k = some v ∨
    rules ≠ [] ∧ k = (RuleRef.of rules).bytes ∧ v = Rule.encodeAll rules
  := by
  rw [get?_rules_putGate] at h
  split at h
  next hnew => exact Or.inr ⟨hnew.1, hnew.2.1, (Option.some.inj h).symm⟩
  next => exact Or.inl h

end Store

namespace Represents

variable {s : Store} {l : Ledger} {supplied : Set (List Rule)}

/-- The store that holds nothing represents the empty ledger. -/
theorem empty :
  Represents .empty .empty ∅
  where
  isInitialized := rfl
  isFrozen := rfl
  root? := rfl
  managers p := by
    rw [Ledger.empty, Finmap.lookup_empty]
    rfl
  grants p e := by
    rw [Ledger.empty, Finmap.lookup_empty]
    rfl
  granted p e rules h := by
    rw [Ledger.empty, Finmap.lookup_empty] at h
    contradiction
  stored k v h := by contradiction

/-- More rule sequences may be supplied. -/
theorem mono (h : Represents s l supplied) {more : Set (List Rule)} (hmore : supplied ⊆ more) :
  Represents s l more
  := by
  refine { h with granted := ?_, stored := ?_ }
  · intro p e rules hlookup hne
    apply hmore (h.granted p e rules hlookup hne)
  · intro k v hv
    obtain ⟨rules, hmem, hk, hv⟩ := h.stored k v hv
    exact ⟨rules, hmore hmem, hk, hv⟩

/-! ### Changes -/

/-- A grant under a supplied rule sequence is put in. -/
theorem putGate (h : Represents s l supplied) (p : Pair) (e : Entity) {rules : List Rule}
    (hrules : rules ≠ [] → rules ∈ supplied) :
  Represents (s.putGate p e rules) { l with grants := l.grants.insert (p, e) rules } supplied
  where
  isInitialized := by
    rw [Store.isInitialized, Store.about_putGate]
    apply h.isInitialized
  isFrozen := by
    rw [Store.isFrozen, Store.about_putGate]
    apply h.isFrozen
  root? := by
    rw [Store.root?, Store.about_putGate]
    apply h.root?
  managers q := by rw [Store.manager?_putGate, h.managers]
  grants q f := by
    rw [Store.grant?_putGate, lookup_insert_eq, h.grants]
    by_cases hkey : q = p ∧ f = e
    · rw [if_pos hkey, if_pos (Prod.ext hkey.1 hkey.2), Option.map_some]
    · rw [if_neg hkey, if_neg fun heq => hkey (Prod.ext_iff.mp heq)]
  granted q f rules' hlookup hne := by
    rw [lookup_insert_eq] at hlookup
    split at hlookup
    · obtain rfl := Option.some.inj hlookup
      apply hrules hne
    · apply h.granted q f rules' hlookup hne
  stored k v hv := by
    rcases Store.rules_putGate hv with hold | ⟨hne, hk, hv⟩
    · apply h.stored k v hold
    · exact ⟨rules, hrules hne, hk, hv⟩

/-- A grant is taken out. -/
theorem eraseGrant (h : Represents s l supplied) (p : Pair) (e : Entity) :
  Represents (s.eraseGrant p e) { l with grants := l.grants.erase (p, e) } supplied
  := by
  refine { h with grants := ?_, granted := ?_ }
  · intro q f
    rw [Store.grant?_eraseGrant, lookup_erase_eq, h.grants]
    by_cases hkey : q = p ∧ f = e
    · rw [if_pos hkey, if_pos (Prod.ext hkey.1 hkey.2), Option.map_none]
    · rw [if_neg hkey, if_neg fun heq => hkey (Prod.ext_iff.mp heq)]
  · intro q f rules hlookup hne
    rw [lookup_erase_eq] at hlookup
    split at hlookup
    · contradiction
    · apply h.granted q f rules hlookup hne

/-- A manager is put in. -/
theorem putManager (h : Represents s l supplied) (p : Pair) (m : Entity) :
  Represents (s.putManager p m) { l with managers := l.managers.insert p m } supplied
  := by
  refine { h with managers := ?_ }
  intro q
  rw [Store.manager?_putManager, lookup_insert_eq, h.managers]
  split <;> rfl

/-- A manager is taken out. -/
theorem eraseManager (h : Represents s l supplied) (p : Pair) :
  Represents (s.eraseManager p) { l with managers := l.managers.erase p } supplied
  := by
  refine { h with managers := ?_ }
  intro q
  rw [Store.manager?_eraseManager, lookup_erase_eq, h.managers]
  split <;> rfl

end Represents

namespace Store

/-- The mark of a template leaves the root. -/
theorem root?_freeze (s : Store) :
  (s.putAbout frozenKey "1").root? = s.root?
  := by
  rw [root?, putAbout, Table.get?_insert, if_neg rootKey_ne_frozenKey, root?]

/-- The root of an initialized store is the one it was initialized with. -/
theorem root?_bootstrap (s : Store) (resource : Resource) (root : Entity) (now : UInt64) :
  (s.bootstrap resource root now).root? = some root
  := by
  have hne : rootKey ≠ initializedAtKey := by decide +kernel
  rw [root?, bootstrap, putAbout, Table.get?_insert, if_neg hne, putAbout, Table.get?_insert,
    if_pos rfl, Option.bind_some, Decimal.read?_write]
  rfl

end Store

namespace Represents

variable {s : Store} {l : Ledger} {supplied : Set (List Rule)}

/-- A fresh store becomes a template. -/
theorem freeze (h : Represents s l supplied) (hfresh : l.phase = .fresh) :
  Represents (s.putAbout Store.frozenKey "1") { l with phase := .frozen } supplied
  := by
  refine { h with isInitialized := ?_, isFrozen := ?_, root? := ?_ }
  · rw [Store.isInitialized_freeze, h.isInitialized, Ledger.isInitialized, hfresh]
    rfl
  · rw [Store.isFrozen, Store.contains_putAbout, decide_eq_true rfl, Bool.true_or]
    rfl
  · rw [Store.root?_freeze, h.root?, Ledger.root?, hfresh]
    rfl

/-- A fresh store is initialized. -/
theorem bootstrap (h : Represents s l supplied) (hfresh : l.phase = .fresh)
    (resource : Resource) (root : Entity) (now : UInt64) :
  Represents (s.bootstrap resource root now)
    ⟨.initialized root, l.managers.insert (Transaction.creationPair resource) root,
      l.grants.insert (Transaction.creationPair resource, root) []⟩ supplied
  := by
  have hempty : ([] : List Rule) ≠ [] → [] ∈ supplied := fun hne => absurd rfl hne
  have hgrant := h.putGate (Transaction.creationPair resource) root hempty
  rw [Store.putGate, if_pos rfl] at hgrant
  have hmanager := hgrant.putManager (Transaction.creationPair resource) root
  refine
    { isInitialized := ?_
      isFrozen := ?_
      root? := ?_
      managers := hmanager.managers
      grants := hmanager.grants
      granted := hmanager.granted
      stored := hmanager.stored }
  · apply Store.isInitialized_bootstrap
  · rw [Store.isFrozen_bootstrap, h.isFrozen, Ledger.isFrozen, hfresh]
    rfl
  · apply Store.root?_bootstrap

end Represents

/-! ### Grants and their rule sequences -/

namespace Represents

variable {s : Store} {l : Ledger} {supplied : Set (List Rule)}

/-- The gate of a grant is the rule sequence that was supplied. -/
theorem gate_eq (h : Represents s l supplied) (hs : s.Sound)
    (hinjective : Set.InjOn RuleRef.of supplied) {p : Pair} {e : Entity} {rules : List Rule}
    (hlookup : l.grants.lookup (p, e) = some rules) :
  s.gate (Grant.under rules) = .ok rules
  := by
  have hgrant := h.grants p e
  rw [hlookup, Option.map_some] at hgrant
  by_cases hne : rules = []
  · subst hne
    rfl
  · rw [Grant.under, if_neg hne] at hgrant ⊢
    obtain ⟨v, hv⟩ := Option.isSome_iff_exists.mp (hs.backed p e _ hgrant)
    obtain ⟨rules', hmem, hk, rfl⟩ := h.stored _ v hv
    have heq : rules = rules' :=
      hinjective (h.granted p e rules hlookup hne) hmem (RuleRef.bytes_injective hk)
    subst heq
    rw [Store.gate, Store.loadRules, hv]
    dsimp only
    rw [Rule.decodeAll?_encodeAll]

/-- The gates of the grants that count for an entity are the rule sequences that count. -/
theorem gates_eq (h : Represents s l supplied) (hs : s.Sound)
    (hinjective : Set.InjOn RuleRef.of supplied) (p : Pair) (e : Entity) :
  (s.holders p e).map (fun g => s.gate g.2) = (l.counting p e).map .ok
  := by
  rw [Store.holders, Ledger.counting, List.map_filterMap, List.map_filterMap]
  congr 1
  funext f
  rw [h.grants]
  cases hlookup : l.grants.lookup (p, f) with
  | none => rfl
  | some rules =>
      change some (s.gate (Grant.under rules)) = some (.ok rules)
      rw [h.gate_eq hs hinjective hlookup]

/-- The rule sequence of a grant is the one supplied. -/
theorem rulesOf_eq (h : Represents s l supplied) (hs : s.Sound)
    (hinjective : Set.InjOn RuleRef.of supplied) (p : Pair) (e : Entity) :
  s.rulesOf p e = .ok (l.rulesOf p e)
  := by
  rw [Store.rulesOf, h.grants, Ledger.rulesOf]
  cases hlookup : l.grants.lookup (p, e) with
  | none => rfl
  | some rules =>
      change (s.gate (Grant.under rules)).mapError _ = _
      rw [h.gate_eq hs hinjective hlookup]
      rfl

/-! ### The list of grants -/

/-- The grants that are listed are those there are. -/
theorem mem_grantees_iff (h : Represents s l supplied) (p : Pair) (e : Entity) (g : Grant) :
  (e, g) ∈ s.grantees p ↔
    ∃ rules, l.grants.lookup (p, e) = some rules ∧ g = Grant.under rules
  := by
  rw [Store.mem_grantees_iff, h.grants, Option.map_eq_some_iff]
  constructor
  · rintro ⟨rules, hlookup, rfl⟩
    exact ⟨rules, hlookup, rfl⟩
  · rintro ⟨rules, hlookup, rfl⟩
    exact ⟨rules, hlookup, rfl⟩

end Represents

end DelegatedAccess
