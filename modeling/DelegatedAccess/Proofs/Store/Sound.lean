import DelegatedAccess.Proofs.Store.Step
import DelegatedAccess.Rule.Structure

/-!
# Sound stores

A store is well formed when its keys are those of grants, pairs and rule sequences, when what
they hold can be read, and when the rule sequence of every grant is stored. It is sound when,
besides, nothing is granted or managed before it is initialized, and no template is
initialized.

The main results of this module are that a store stays sound in any number of steps, and that
a rule sequence, once stored, stays as it is.
-/

namespace DelegatedAccess.Store

/-! ### Well-formed stores -/

/-- A key of a grant with the stored form of a grant, to an entity that may be granted
something. -/
def GrantEntry (k v : Bytes) : Prop :=
  ∃ (p : Pair) (e : Entity) (g : Grant), k = p.grantKey e ∧ v = g.encode ∧ e ≠ .burn

/-- A key of a pair with the stored form of a manager, which is burned or a real actor. -/
def ManagerEntry (k v : Bytes) : Prop :=
  ∃ (p : Pair) (m : Entity), k = p.key ∧ v = m.bytes ∧ (m = .burn ∨ ¬ m.IsReserved)

/-- A reference with the stored form of the sequence it refers to, which is well structured
and not empty. -/
def RulesEntry (k v : Bytes) : Prop :=
  ∃ rules, k = (RuleRef.of rules).bytes ∧ v = Rule.encodeAll rules ∧ rules ≠ [] ∧
    Rule.checkStructure rules = .ok ()

/-- The tables hold what they are for, and the rule sequences of all grants are there. -/
structure WellFormed (s : Store) : Prop where
  grants : s.grants.Only GrantEntry
  managers : s.managers.Only ManagerEntry
  rules : s.rules.Only RulesEntry
  backed : ∀ p e r, s.grant? p e = some (.conditional r) → s.containsRules r = true

namespace WellFormed

variable {s : Store}

/-- The store that holds nothing is well formed. -/
theorem empty :
  Store.empty.WellFormed
  where
  grants := Table.Only.empty
  managers := Table.Only.empty
  rules := Table.Only.empty
  backed := by
    intro p e r h
    contradiction

/-- A grant whose rule sequence is stored can be put in. -/
theorem putGrant (h : s.WellFormed) {p : Pair} {e : Entity} {g : Grant} (he : e ≠ .burn)
    (hg : ∀ r, g = .conditional r → s.containsRules r = true) :
  (s.putGrant p e g).WellFormed
  := by
  refine { h with grants := ?_, backed := ?_ }
  · apply h.grants.insert
    exact ⟨p, e, g, rfl, rfl, he⟩
  · intro q f r hr
    rw [grant?_putGrant] at hr
    split at hr
    next => apply hg r (Option.some.inj hr)
    next => apply h.backed q f r hr

/-- Any grant can be taken out. -/
theorem eraseGrant (h : s.WellFormed) (p : Pair) (e : Entity) :
  (s.eraseGrant p e).WellFormed
  := by
  refine { h with grants := h.grants.erase _, backed := ?_ }
  intro q f r hr
  rw [grant?_eraseGrant] at hr
  split at hr
  next => contradiction
  next => apply h.backed q f r hr

/-- A manager that is burned or a real actor can be put in. -/
theorem putManager (h : s.WellFormed) (p : Pair) {m : Entity}
    (hm : m = .burn ∨ ¬ m.IsReserved) :
  (s.putManager p m).WellFormed
  := by
  refine { h with managers := ?_ }
  apply h.managers.insert
  exact ⟨p, m, rfl, rfl, hm⟩

/-- Any manager can be taken out. -/
theorem eraseManager (h : s.WellFormed) (p : Pair) :
  (s.eraseManager p).WellFormed
  := { h with managers := h.managers.erase _ }

/-- Texts about the instance can be put in. -/
theorem putAbout (h : s.WellFormed) (key : Bytes) (text : String) :
  (s.putAbout key text).WellFormed
  := { h with }

end WellFormed

/-! ### Rule sequences after a change -/

/-- What is found under a reference after a sequence was put in. -/
theorem rules_addRules (s : Store) (rules : List Rule) (k : Bytes) :
  (s.addRules rules).rules.get? k =
    if k = (RuleRef.of rules).bytes ∧ s.rules.get? k = none then some (Rule.encodeAll rules)
    else s.rules.get? k
  := by
  rw [addRules, containsRules, Table.contains]
  split
  next h =>
    split
    next hk =>
      rw [← hk.1, hk.2] at h
      simp at h
    next => rfl
  next h =>
    rw [Option.not_isSome_iff_eq_none] at h
    dsimp only
    rw [Table.get?_insert]
    split
    next hk => rw [if_pos ⟨hk, hk ▸ h⟩]
    next hk => rw [if_neg fun hboth => hk hboth.1]

/-- What is found under a reference after a grant under a rule sequence. -/
theorem get?_rules_putGate (s : Store) (p : Pair) (e : Entity) (rules : List Rule) (k : Bytes) :
  (s.putGate p e rules).rules.get? k =
    if rules ≠ [] ∧ k = (RuleRef.of rules).bytes ∧ s.rules.get? k = none then
      some (Rule.encodeAll rules)
    else s.rules.get? k
  := by
  rw [putGate]
  split
  next hempty =>
    rw [if_neg fun h => h.1 hempty]
    rfl
  next hne =>
    change (s.addRules rules).rules.get? k = _
    rw [rules_addRules]
    simp only [ne_eq, hne, not_false_eq_true, true_and]

/-- Whatever rule sequences one store holds, another holds too, byte for byte. -/
def KeepsRules (s t : Store) : Prop :=
  ∀ k v, s.rules.get? k = some v → t.rules.get? k = some v

/-- Putting a sequence in keeps those there are. -/
theorem keepsRules_addRules (s : Store) (rules : List Rule) :
  s.KeepsRules (s.addRules rules)
  := by
  intro k v h
  rw [rules_addRules, if_neg, h]
  rintro ⟨_, hnone⟩
  rw [hnone] at h
  simp at h

/-- A sequence that was put in is there. -/
theorem containsRules_addRules (s : Store) (rules : List Rule) :
  (s.addRules rules).containsRules (RuleRef.of rules) = true
  := by
  rw [containsRules, Table.contains, rules_addRules]
  split
  next => rfl
  next h =>
    rw [Option.isSome_iff_ne_none]
    intro hnone
    apply h ⟨rfl, hnone⟩

/-- A store that keeps rule sequences has those it had. -/
theorem KeepsRules.containsRules {s t : Store} (h : s.KeepsRules t) {r : RuleRef}
    (hr : s.containsRules r = true) :
  t.containsRules r = true
  := by
  obtain ⟨v, hv⟩ := Option.isSome_iff_exists.mp hr
  rw [Store.containsRules, Table.contains, h _ v hv]
  rfl

namespace WellFormed

variable {s : Store}

/-- A well-structured rule sequence can be put in. -/
theorem addRules (h : s.WellFormed) {rules : List Rule} (hne : rules ≠ [])
    (hcheck : Rule.checkStructure rules = .ok ()) :
  (s.addRules rules).WellFormed
  where
  grants := by
    rw [Store.addRules]
    split <;> exact h.grants
  managers := by
    rw [Store.addRules]
    split <;> exact h.managers
  rules := by
    intro k v hv
    rw [rules_addRules] at hv
    split at hv
    next hk =>
      obtain rfl := Option.some.inj hv
      exact ⟨rules, hk.1, rfl, hne, hcheck⟩
    next => apply h.rules k v hv
  backed := by
    intro p e r hr
    rw [grant?_eq_of_part (part_addRules s rules p)] at hr
    apply (keepsRules_addRules s rules).containsRules
    apply h.backed p e r hr

/-- A grant under a well-structured rule sequence can be put in. -/
theorem putGate (h : s.WellFormed) (p : Pair) {e : Entity} {rules : List Rule} (he : e ≠ .burn)
    (hcheck : Rule.checkStructure rules = .ok ()) :
  (s.putGate p e rules).WellFormed
  := by
  rw [Store.putGate]
  split
  next =>
    apply h.putGrant he
    intro r hr
    contradiction
  next hne =>
    apply (h.addRules hne hcheck).putGrant he
    intro r hr
    rw [← Grant.conditional.inj hr]
    apply containsRules_addRules

end WellFormed

/-! ### What is known of the instance after a change -/

/-- Grants under rule sequences are no texts about the instance. -/
@[simp] theorem about_putGate (s : Store) (p : Pair) (e : Entity) (rules : List Rule) :
  (s.putGate p e rules).about = s.about
  := by
  rw [putGate, addRules]
  split
  · rfl
  · split <;> rfl

/-- No task changes what is known of the instance. -/
@[simp] theorem about_task (task : Task) (p : Pair) (s : Store) :
  (task.change p s).about = s.about
  := by
  cases task with
  | grant e rules => apply about_putGate
  | revoke e => rfl
  | setManager m => rfl
  | removeManager => rfl
  | burnManager => rfl

/-- No creation changes what is known of the instance. -/
@[simp] theorem about_creation (c : Creation) (s : Store) :
  (c.change s).about = s.about
  := by
  rw [Creation.change]
  cases c.grantee with
  | none => rfl
  | some g => apply about_putGate

/-- What is known under a key after a text was put in. -/
theorem contains_putAbout (s : Store) (key k : Bytes) (text : String) :
  (s.putAbout key text).about.contains k = (decide (k = key) || s.about.contains k)
  := by
  rw [Table.contains, putAbout, Table.get?_insert]
  split
  next h => simp [h]
  next h => simp [h, Table.contains]

/-- The key of the root is not that of the mark of a template. -/
theorem rootKey_ne_frozenKey :
  rootKey ≠ frozenKey
  := by
  decide +kernel

/-- The key of the time of initialization is not that of the mark of a template. -/
theorem initializedAtKey_ne_frozenKey :
  initializedAtKey ≠ frozenKey
  := by
  decide +kernel

/-- The mark of a template does not make a store initialized. -/
@[simp] theorem isInitialized_freeze (s : Store) :
  (s.putAbout frozenKey "1").isInitialized = s.isInitialized
  := by
  rw [isInitialized, contains_putAbout, decide_eq_false rootKey_ne_frozenKey]
  rfl

/-- A store with a root is initialized. -/
@[simp] theorem isInitialized_bootstrap (s : Store) (resource : Resource) (root : Entity)
    (now : UInt64) :
  (s.bootstrap resource root now).isInitialized = true
  := by
  rw [isInitialized, bootstrap, contains_putAbout, contains_putAbout, decide_eq_true rfl,
    Bool.true_or, Bool.or_true]

/-- Initialization does not make a store a template. -/
@[simp] theorem isFrozen_bootstrap (s : Store) (resource : Resource) (root : Entity)
    (now : UInt64) :
  (s.bootstrap resource root now).isFrozen = s.isFrozen
  := by
  rw [isFrozen, bootstrap, contains_putAbout, contains_putAbout,
    decide_eq_false initializedAtKey_ne_frozenKey.symm,
    decide_eq_false rootKey_ne_frozenKey.symm]
  rfl

/-! ### Sound stores -/

/-- The tables are well formed and empty before initialization, and no template is
initialized. -/
structure Sound (s : Store) : Prop extends s.WellFormed where
  ungranted : s.isInitialized = false → s.grants = .empty
  unmanaged : s.isInitialized = false → s.managers = .empty
  apart : s.isInitialized = true → s.isFrozen = false

/-- The store that holds nothing is sound. -/
theorem Sound.empty :
  Store.empty.Sound
  where
  toWellFormed := WellFormed.empty
  ungranted _ := rfl
  unmanaged _ := rfl
  apart h := by contradiction

/-- What is initialized already stays sound when its tables do. -/
theorem Sound.of_about {s t : Store} (hs : s.Sound) (hinitialized : s.isInitialized = true)
    (habout : t.about = s.about) (ht : t.WellFormed) :
  t.Sound
  := by
  have hinit : t.isInitialized = true := by rwa [isInitialized, habout]
  have hfrozen : t.isFrozen = false := by
    rw [isFrozen, habout]
    apply hs.apart hinitialized
  exact { ht with
    ungranted := fun h => absurd hinit (by rw [h]; exact Bool.false_ne_true)
    unmanaged := fun h => absurd hinit (by rw [h]; exact Bool.false_ne_true)
    apart := fun _ => hfrozen }

/-- A task leaves the tables well formed. -/
theorem WellFormed.task {s : Store} (h : s.WellFormed) {caller : Entity} {p : Pair} {task : Task}
    (hinput : (Operation.Kind.manage caller p task).IsWellFormed) :
  (task.change p s).WellFormed
  := by
  cases task with
  | grant e rules => apply h.putGate p hinput.1 hinput.2
  | revoke e => apply h.eraseGrant
  | setManager m => apply h.putManager p (Or.inr hinput)
  | removeManager => apply h.eraseManager
  | burnManager => apply h.putManager p (Or.inl rfl)

/-- A creation leaves the tables well formed. -/
theorem WellFormed.creation {s : Store} (h : s.WellFormed) {c : Creation}
    (hinput : (Operation.Kind.create c).IsWellFormed) :
  (c.change s).WellFormed
  := by
  obtain ⟨caller, p, grantee, m⟩ := c
  cases grantee with
  | none => apply h.putManager p (Or.inl hinput)
  | some g =>
      obtain ⟨e, rules⟩ := g
      obtain ⟨he, hm, hcheck⟩ := hinput
      exact (h.putGate p he hcheck).putManager p (Or.inr hm)

/-- A step leaves a store sound. -/
theorem Step.sound {s t : Store} (h : s.Step t) (hs : s.Sound) :
  t.Sound
  := by
  cases h with
  | bootstrap resource root now hroot hfrozen hinitialized =>
      have hne : root ≠ .burn := fun hburn => hroot (Or.inr hburn)
      have hgrant := hs.putGrant (p := Transaction.creationPair resource) (g := .unconditional)
        hne (by intro r hr; contradiction)
      have ht : (s.bootstrap resource root now).WellFormed :=
        ((hgrant.putManager _ (Or.inr hroot)).putAbout _ _).putAbout _ _
      exact { ht with
        ungranted := by simp
        unmanaged := by simp
        apart := by simp [hfrozen] }
  | freeze hfrozen hinitialized =>
      exact { hs.putAbout frozenKey "1" with
        ungranted := fun _ => hs.ungranted hinitialized
        unmanaged := fun _ => hs.unmanaged hinitialized
        apart := by simp [hinitialized] }
  | refreeze hfrozen => exact hs
  | create c hinput hinitialized hcaller hfree =>
      apply hs.of_about hinitialized (about_creation c s) (hs.creation hinput)
  | manage caller p task hinput hinitialized hcaller hmanager =>
      apply hs.of_about hinitialized (about_task task p s) (hs.task hinput)

/-- Any number of steps leave a store sound. -/
theorem Steps.sound {s t : Store} (h : s.Steps t) (hs : s.Sound) :
  t.Sound
  := by
  induction h with
  | refl => exact hs
  | tail _ hstep ih => apply hstep.sound ih

/-! ### Rule sequences stay -/

/-- A store keeps its own rule sequences. -/
theorem KeepsRules.refl (s : Store) :
  s.KeepsRules s
  := fun _ _ h => h

/-- What is kept twice is kept. -/
theorem KeepsRules.trans {s t u : Store} (hst : s.KeepsRules t) (htu : t.KeepsRules u) :
  s.KeepsRules u
  := fun k v h => htu k v (hst k v h)

/-- A grant under a rule sequence keeps those there are. -/
theorem keepsRules_putGate (s : Store) (p : Pair) (e : Entity) (rules : List Rule) :
  s.KeepsRules (s.putGate p e rules)
  := by
  rw [putGate]
  split
  · apply KeepsRules.refl
  · apply keepsRules_addRules

/-- A step keeps the rule sequences. -/
theorem Step.keepsRules {s t : Store} (h : s.Step t) :
  s.KeepsRules t
  := by
  cases h with
  | bootstrap resource root now hroot hfrozen hinitialized => apply KeepsRules.refl
  | freeze hfrozen hinitialized => apply KeepsRules.refl
  | refreeze hfrozen => apply KeepsRules.refl
  | create c hinput hinitialized hcaller hfree =>
      rw [Creation.change]
      cases c.grantee with
      | none => apply KeepsRules.refl
      | some g => apply keepsRules_putGate
  | manage caller p task hinput hinitialized hcaller hmanager =>
      cases task with
      | grant e rules => apply keepsRules_putGate
      | revoke e => apply KeepsRules.refl
      | setManager m => apply KeepsRules.refl
      | removeManager => apply KeepsRules.refl
      | burnManager => apply KeepsRules.refl

/-- Any number of steps keep the rule sequences. -/
theorem Steps.keepsRules {s t : Store} (h : s.Steps t) :
  s.KeepsRules t
  := by
  induction h with
  | refl => apply KeepsRules.refl
  | tail _ hstep ih => apply ih.trans hstep.keepsRules

end DelegatedAccess.Store
