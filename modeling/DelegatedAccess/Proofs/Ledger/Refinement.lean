import DelegatedAccess.Proofs.Exclusivity
import DelegatedAccess.Proofs.Ledger.Representation

/-!
# Instances refine ledgers

Along every run from an empty store, whose oracles leave the instance alone, an instance does
what a ledger does: every act succeeds, or fails with the same error, and every query has an
answer that is right for the ledger. All that is assumed of the references to rule sequences
is that different sequences that were supplied have different references.
-/

namespace DelegatedAccess

variable {η ω : Type}

/-! ### Transactions -/

/-- A transaction comes to what happens to a ledger: it fails with the same error, or makes a
draft that represents the ledger after. -/
inductive Follows (supplied : Set (List Rule)) :
    Except AccessError Draft → Except AccessError Ledger → Prop
  | error (e : AccessError) : Follows supplied (.error e) (.error e)
  | ok {d : Draft} {l : Ledger} (h : Represents d.store l supplied) :
      Follows supplied (.ok d) (.ok l)

section

variable {s : Store} {l : Ledger} {supplied : Set (List Rule)}

/-- Initialization follows that of the ledger. -/
theorem Represents.follows_bootstrap (h : Represents s l supplied) (resource : Resource)
    (root : Entity) (now : UInt64) :
  Follows supplied (Transaction.bootstrap resource root now s) (l.bootstrap resource root)
  := by
  rw [Transaction.bootstrap_eq, Ledger.bootstrap, h.isFrozen, h.isInitialized]
  rw [Ledger.isFrozen, Ledger.isInitialized]
  cases hl : l.phase with
  | fresh => apply Follows.ok (h.bootstrap hl resource root now)
  | initialized root' => apply Follows.error
  | frozen => apply Follows.error

/-- Making a template follows what happens to the ledger. -/
theorem Represents.follows_freeze (h : Represents s l supplied) :
  Follows supplied (Transaction.freeze s) l.freeze
  := by
  rw [Transaction.freeze_eq, Ledger.freeze, h.isFrozen, h.isInitialized]
  rw [Ledger.isFrozen, Ledger.isInitialized]
  cases hl : l.phase with
  | fresh => apply Follows.ok (h.freeze hl)
  | initialized root => apply Follows.error
  | frozen => apply Follows.ok h

/-- What a task makes of a store follows what it does to the ledger. -/
theorem Represents.task (h : Represents s l supplied) {caller : Entity} (p : Pair) (task : Task)
    (hsupplied : (Operation.Kind.manage caller p task).supplied ⊆ supplied) :
  Represents (task.change p s) (l.task p task) supplied
  := by
  cases task with
  | grant e rules => exact h.putGate p e fun _ => hsupplied rfl
  | revoke e => apply h.eraseGrant
  | setManager m => apply h.putManager
  | removeManager => apply h.eraseManager
  | burnManager => apply h.putManager

/-- What a creation makes of a store follows what it does to the ledger. -/
theorem Represents.creation (h : Represents s l supplied) (c : Creation)
    (hsupplied : (Operation.Kind.create c).supplied ⊆ supplied) :
  Represents (c.change s)
    { l with
      managers := l.managers.insert c.pair c.manager
      grants := match c.grantee with
        | none => l.grants
        | some (e, rules) => l.grants.insert (c.pair, e) rules } supplied
  := by
  obtain ⟨caller, p, grantee, m⟩ := c
  cases grantee with
  | none => apply h.putManager
  | some g =>
      obtain ⟨e, rules⟩ := g
      exact (h.putGate p e fun _ => hsupplied ⟨e, rfl⟩).putManager p m

/-- A task is done when the ledger lets it be done. -/
theorem Represents.follows_task (h : Represents s l supplied) (caller : Entity) (p : Pair)
    (task : Task) (hsupplied : (Operation.Kind.manage caller p task).supplied ⊆ supplied) :
  Follows supplied (task.transaction caller p s) (l.manage caller p task)
  := by
  rw [Task.transaction_eq, Store.requireManager_eq, Ledger.manage, h.isInitialized, h.managers]
  by_cases hinitialized : l.isInitialized = false
  · rw [if_pos hinitialized, if_pos hinitialized]
    apply Follows.error
  · rw [if_neg hinitialized, if_neg hinitialized]
    by_cases hcaller : caller.IsReserved
    · rw [if_pos hcaller, if_pos (Or.inl hcaller)]
      apply Follows.error
    · rw [if_neg hcaller]
      dsimp only
      by_cases hmanager : l.managers.lookup p = some caller
      · rw [if_pos hmanager, if_neg fun hor => hor.elim hcaller fun hne => hne hmanager]
        apply Follows.ok
        rw [Task.store_draft]
        apply h.task p task hsupplied
      · rw [if_neg hmanager, if_pos (Or.inr hmanager)]
        apply Follows.error

/-- A pair is created when its ledger lets it be created, for a caller that is no reserved
entity and is granted the creation capability by grants that are still the same. -/
theorem Represents.follows_create (h : Represents s l supplied) (resource : Resource)
    (c : Creation) (setting : Setting) (hinitialized : ¬ l.isInitialized = false)
    (hcaller : ¬ c.caller.IsReserved)
    (hgranted : l.check setting (c.request setting.config.resource setting.now) = .granted)
    (hsupplied : (Operation.Kind.create c).supplied ⊆ supplied) :
  Follows supplied
    (Transaction.create resource c.caller
      (s.holders (Transaction.creationPair resource) c.caller) c.pair c.grantee c.manager s)
    (l.create setting c)
  := by
  rw [Transaction.create_eq, Ledger.create, h.isInitialized, h.managers]
  rw [if_neg hinitialized, if_neg hinitialized, if_neg fun hne => hne rfl]
  rw [if_neg fun hor => hor.elim hcaller fun hne => hne hgranted]
  cases l.managers.lookup c.pair with
  | some m => apply Follows.error
  | none =>
      apply Follows.ok
      rw [Creation.store_draft]
      apply h.creation c hsupplied

end

/-! ### Acts -/

namespace World

/-- The circumstances of a world: requests are decided by the rule sequences themselves, with
the oracles that are registered. -/
def setting (behave : Behaviour η ω) (now : UInt64) (w : World η ω) : Setting :=
  { config := w.current.config
    now
    decide := fun req sequences =>
      ((Decision.byGates (panel behave w.current) req w.current.config.maxDepth.toNat
        (sequences.map .ok)).run w).1 }

/-- An action comes to what happens to a ledger, in a world that represents the ledger then. -/
inductive Mirrors {α : Type} (supplied : Set (List Rule)) (l : Ledger) :
    Except AccessError α × World η ω → Except AccessError Ledger → Prop
  | error {v : World η ω} (e : AccessError) (h : Represents v.current.store l supplied) :
      Mirrors supplied l (.error e, v) (.error e)
  | ok {v : World η ω} {l' : Ledger} (a : α) (h : Represents v.current.store l' supplied) :
      Mirrors supplied l (.ok a, v) (.ok l')

variable {l : Ledger} {supplied : Set (List Rule)}

/-- The instance and the ledger both go on, or fail with the same error. -/
theorem Mirrors.map_eq {α : Type} {x : Except AccessError α × World η ω}
    {y : Except AccessError Ledger} (h : Mirrors supplied l x y) :
  x.1.map (fun _ => ()) = y.map fun _ => ()
  := by
  cases h with
  | error e _ => rfl
  | ok a _ => rfl

/-- The store represents the ledger after an act that was mirrored. -/
theorem Mirrors.represents_after {α : Type} {x : Except AccessError α × World η ω}
    {setting : Setting} {a : Act η} (h : Mirrors supplied l x (l.act setting a)) :
  Represents x.2.current.store (l.after setting a) supplied
  := by
  rw [Ledger.after]
  generalize l.act setting a = y at h ⊢
  cases h with
  | error e hrep => exact hrep
  | ok b hrep => exact hrep

/-- A transaction is committed when it follows what happens to the ledger. -/
theorem mirrors_commit {t : Transaction} {v : World η ω} {y : Except AccessError Ledger}
    (h : Represents v.current.store l supplied) (ht : Follows supplied (t v.current.store) y) :
  Mirrors supplied l ((commit t).run.run v) y
  := by
  rw [commit_run]
  generalize t v.current.store = x at ht ⊢
  cases ht with
  | error e => apply Mirrors.error e h
  | ok hd => apply Mirrors.ok _ hd

/-- A request is decided by the rule sequences that were supplied. -/
theorem decide_eq_check {w : World η ω} (h : Represents w.current.store l supplied)
    (hs : w.current.store.Sound) (hinjective : Set.InjOn RuleRef.of supplied)
    (behave : Behaviour η ω) (now : UInt64) (req : Request) :
  ((decide behave req).run w).1 = l.check (setting behave now w) req
  := by
  rw [decide_run, h.gates_eq hs hinjective]
  rfl

/-- A creation does what it does to the ledger, whatever is decided on its request. -/
theorem mirrors_establish {w : World η ω} (h : Represents w.current.store l supplied)
    (hs : w.current.store.Sound) (hinjective : Set.InjOn RuleRef.of supplied)
    {behave : Behaviour η ω} (hinert : behave.IsInert) (now : UInt64) (c : Creation) :
  Mirrors (supplied ∪ (Operation.Kind.create c).supplied) l
    ((establish behave now c.caller c.pair c.grantee c.manager).run.run w)
    (l.create (setting behave now w) c)
  := by
  have hmore := h.mono (Set.subset_union_left (t := (Operation.Kind.create c).supplied))
  have hcheck := decide_eq_check h hs hinjective behave now
    (c.request w.current.config.resource now)
  have hcurrent := hinert.current_decide (c.request w.current.config.resource now) w
  rcases hdecide : (decide behave (c.request w.current.config.resource now)).run w with
    ⟨decision, v⟩
  rw [hdecide] at hcheck hcurrent
  dsimp only at hcheck hcurrent
  rw [establish_run hdecide, h.isInitialized]
  by_cases hinitialized : l.isInitialized = false
  · rw [if_pos hinitialized, Ledger.create, if_pos hinitialized]
    apply Mirrors.error _ hmore
  · rw [if_neg hinitialized]
    by_cases hcaller : c.caller.IsReserved
    · rw [if_pos hcaller, Ledger.create, if_neg hinitialized, if_pos (Or.inl hcaller)]
      apply Mirrors.error _ hmore
    · rw [if_neg hcaller]
      by_cases hgranted : decision = .granted
      · rw [if_pos hgranted]
        rw [← hcurrent] at hmore
        apply mirrors_commit hmore
        have hfollows := hmore.follows_create w.current.config.resource c
          (setting behave now w) hinitialized hcaller (hcheck.symm.trans hgranted)
          Set.subset_union_right
        rw [hcurrent] at hfollows ⊢
        exact hfollows
      · have hdenied : l.check (setting behave now w)
            (c.request (setting behave now w).config.resource (setting behave now w).now) ≠
            .granted := fun heq => hgranted (hcheck.trans heq)
        rw [if_neg hgranted, Ledger.create, if_neg hinitialized, if_pos (Or.inr hdenied)]
        rw [← hcurrent] at hmore
        apply Mirrors.error _ hmore

/-- An operation does what it does to the ledger, once its input is screened. -/
theorem mirrors_pursue {w : World η ω} (h : Represents w.current.store l supplied)
    (hs : w.current.store.Sound) (hinjective : Set.InjOn RuleRef.of supplied)
    {behave : Behaviour η ω} (hinert : behave.IsInert) (now : UInt64) (kind : Operation.Kind) :
  Mirrors (supplied ∪ kind.supplied) l
    ((pursue behave now w.current.config.resource kind).run.run w)
    (l.pursue (setting behave now w) kind)
  := by
  have hmore := h.mono (Set.subset_union_left (t := kind.supplied))
  have hsupplied : kind.supplied ⊆ supplied ∪ kind.supplied := Set.subset_union_right
  cases kind with
  | bootstrap root => apply mirrors_commit hmore (hmore.follows_bootstrap _ root now)
  | freeze => apply mirrors_commit hmore hmore.follows_freeze
  | manage caller p task =>
      apply mirrors_commit hmore (hmore.follows_task caller p task hsupplied)
  | create c => apply mirrors_establish h hs hinjective hinert

/-- An operation does what it does to the ledger. -/
theorem mirrors_perform {w : World η ω} (h : Represents w.current.store l supplied)
    (hs : w.current.store.Sound) (hinjective : Set.InjOn RuleRef.of supplied)
    {behave : Behaviour η ω} (hinert : behave.IsInert) (now : UInt64) (op : Operation) :
  Mirrors (supplied ∪ op.kind.supplied) l ((perform behave now op).run.run w)
    (l.perform (setting behave now w) op.kind)
  := by
  have hconfig : (setting behave now w).config = w.current.config := rfl
  rw [perform_run, Ledger.perform, hconfig]
  cases op.kind.screen w.current.config with
  | error e => apply Mirrors.error e (h.mono Set.subset_union_left)
  | ok _ => apply mirrors_pursue h hs hinjective hinert

/-- A result that is wrapped still comes to what happens to the ledger. -/
theorem Mirrors.wrap {α β : Type} {m : Attempt η ω α} {f : α → β} {w : World η ω}
    {y : Except AccessError Ledger} (h : Mirrors supplied l (m.run.run w) y) :
  Mirrors supplied l ((do return f (← m) : Attempt η ω β).run.run w) y
  := by
  rw [wrap_run]
  generalize m.run.run w = x at h ⊢
  cases h with
  | error e h => apply Mirrors.error e h
  | ok a h => apply Mirrors.ok (f a) h

/-! ### Queries -/

/-- Every query has an answer that is right for the ledger. -/
theorem allows_answer {w : World η ω} (h : Represents w.current.store l supplied)
    (hs : w.current.store.Sound) (hinjective : Set.InjOn RuleRef.of supplied)
    (behave : Behaviour η ω) (now : UInt64) (q : Query) :
  ∃ a, ((answer behave now q).run.run w).1 = .ok a ∧ l.Allows (setting behave now w) q a
  := by
  cases q with
  | status =>
      refine ⟨.status w.current.status, rfl, w.current.store.initializedAt?, ?_⟩
      rw [Instance.status, h.isInitialized, h.isFrozen, h.root?]
      rfl
  | config => exact ⟨.config w.current.config, rfl, rfl⟩
  | has e p args =>
      refine ⟨_, ?_, rfl⟩
      rw [answer, wrap_run, ← decide_eq_check h hs hinjective]
      rfl
  | check req =>
      refine ⟨_, ?_, rfl⟩
      rw [answer_check_run, decide_eq_check h hs hinjective behave now]
  | manager p =>
      refine ⟨_, ?_, rfl⟩
      rw [answer, read_run, h.managers]
      rfl
  | grant e p =>
      refine ⟨_, ?_, rfl⟩
      rw [answer, read_run, h.grants]
      rfl
  | ruleCount e p =>
      refine ⟨_, ?_, rfl⟩
      have hread := read_run (w := w) (·.rulesOf p e) fun rules => .count rules.length
      rw [h.rulesOf_eq hs hinjective] at hread
      exact congrArg Prod.fst hread
  | rule e p index =>
      refine ⟨_, ?_, rfl⟩
      have hread := read_run (w := w) (·.rulesOf p e) fun rules => .rule rules[index]?
      rw [h.rulesOf_eq hs hinjective] at hread
      exact congrArg Prod.fst hread
  | grantees p =>
      refine ⟨.grantees (w.current.store.grantees p), ?_, _, rfl,
        w.current.store.pairwise_grantees p, h.mem_grantees_iff p⟩
      rw [answer, read_run]
      rfl

/-! ### Runs -/

/-- Anything done does what it does to the ledger. -/
theorem mirrors_act {w : World η ω} (h : Represents w.current.store l supplied)
    (hs : w.current.store.Sound) (hinjective : Set.InjOn RuleRef.of supplied)
    {behave : Behaviour η ω} (hinert : behave.IsInert) (now : UInt64) (a : Act η) :
  Mirrors (supplied ∪ a.supplied) l ((act behave now a).run.run w)
    (l.act (setting behave now w) a)
  := by
  have hmore := h.mono (Set.subset_union_left (t := a.supplied))
  cases a with
  | operation op => exact (mirrors_perform h hs hinjective hinert now op).wrap
  | query q =>
      obtain ⟨x, hx, _⟩ := allows_answer h hs hinjective behave now q
      rw [act, wrap_run, hx]
      apply Mirrors.ok
      rw [hinert.current_answer]
      exact hmore
  | register e handle => exact Mirrors.ok _ hmore
  | addSink name => exact Mirrors.ok _ hmore
  | reopen config template =>
      have hfollows := hmore.follows_freeze
      rw [reopen_run, Instance.reopen_eq, Ledger.act, Ledger.reopen]
      cases config.validate with
      | error e => apply Mirrors.error _ hmore
      | ok _ =>
          cases template with
          | false => exact Mirrors.ok _ hmore
          | true =>
              dsimp only
              generalize Transaction.freeze w.current.store = x at hfollows ⊢
              generalize l.freeze = y at hfollows ⊢
              cases hfollows with
              | error e => apply Mirrors.error e hmore
              | ok hd => apply Mirrors.ok _ hd

/-- A ledger keeps up with a world: it starts empty in a fresh world, and the same is done
with both, at the same time and with oracles that leave the instance alone. What rule
sequences were supplied on the way is noted. -/
inductive Tracked : World η ω → Ledger → Set (List Rule) → Prop
  | fresh {w : World η ω} (hfresh : w.IsFresh) : Tracked w .empty ∅
  | act {w : World η ω} {l : Ledger} {supplied : Set (List Rule)} (behave : Behaviour η ω)
      (hinert : behave.IsInert) (now : UInt64) (a : Act η) (h : Tracked w l supplied) :
      Tracked ((World.act behave now a).run.run w).2 (l.after (setting behave now w) a)
        (supplied ∪ a.supplied)
  | host {w : World η ω} {l : Ledger} {supplied : Set (List Rule)} (state : ω)
      (h : Tracked w l supplied) : Tracked { w with host := state } l supplied

/-- Oracles that leave the instance alone make runs. -/
theorem Behaviour.IsInert.run {behave : Behaviour η ω} (h : behave.IsInert) (handle : η)
    (q : Question) (w : World η ω) :
  Run w ((behave handle q).run w).2
  := by
  have hsame : ((behave handle q).run w).2 =
      { w with host := ((behave handle q).run w).2.host } := by
    rw [← h handle q w]
  rw [hsame]
  apply Run.host _ (Run.refl w)

/-- A world with which a ledger keeps up is reachable. -/
theorem Tracked.isReachable {w : World η ω} (h : Tracked w l supplied) :
  w.IsReachable
  := by
  induction h with
  | fresh hfresh => exact ⟨_, hfresh, Run.refl _⟩
  | act behave hinert now a _ ih => apply ih.run (Run.act behave now a (Run.refl _) hinert.run)
  | host state _ ih => apply ih.run (Run.host state (Run.refl _))

/-- A ledger that keeps up with a world is represented by its store, when different rule
sequences that were supplied have different references. -/
theorem Tracked.represents {w : World η ω} (h : Tracked w l supplied)
    (hinjective : Set.InjOn RuleRef.of supplied) :
  Represents w.current.store l supplied
  := by
  induction h with
  | fresh hfresh =>
      obtain ⟨config, hconfig⟩ := hfresh
      rw [Instance.store_start hconfig]
      apply Represents.empty
  | @act w l supplied behave hinert now a h ih =>
      have hbefore : Set.InjOn RuleRef.of supplied := hinjective.mono Set.subset_union_left
      have hact := mirrors_act (ih hbefore) h.isReachable.sound hbefore hinert now a
      apply hact.represents_after
  | host state _ ih => apply ih hinjective

/-- At every point of a run an act succeeds with an instance when it does with the ledger that
keeps up, and fails with the same error otherwise, and every query has an answer that is right
for the ledger, provided that different rule sequences that were supplied have different
references. -/
theorem refines_ledger {w : World η ω} (h : Tracked w l supplied)
    (hinjective : Set.InjOn RuleRef.of supplied) :
  (∀ (behave : Behaviour η ω), behave.IsInert → ∀ (now : UInt64) (a : Act η),
    ((act behave now a).run.run w).1.map (fun _ => ()) =
      (l.act (setting behave now w) a).map fun _ => ()) ∧
    ∀ (behave : Behaviour η ω) (now : UInt64) (q : Query),
      ∃ a, ((answer behave now q).run.run w).1 = .ok a ∧ l.Allows (setting behave now w) q a
  := by
  have hrep := h.represents hinjective
  have hs := h.isReachable.sound
  constructor
  · intro behave hinert now a
    apply (mirrors_act hrep hs hinjective hinert now a).map_eq
  · intro behave now q
    apply allows_answer hrep hs hinjective

/-! ### An example -/

/-- A ledger keeps up with a world in which a pair is granted to two entities under different
rule sequences, and the grants of the pair are listed as the ledger has them. -/
theorem refines_ledger_two_sequences :
  ∃ (w : World Unit Unit) (l : Ledger) (supplied : Set (List Rule)),
    Tracked w l supplied ∧ Set.InjOn RuleRef.of supplied ∧
      [Rule.always] ∈ supplied ∧ [Rule.never] ∈ supplied ∧
      ∃ a, ((answer agreeable 1 (.grantees examplePair)).run.run w).1 = .ok a ∧
        l.Allows (setting agreeable 1 w) (.grantees examplePair) a
  := by
  have hfresh : Tracked (η := Unit) blank .empty ∅ :=
    Tracked.fresh isFresh_blank
  have hroot := hfresh.act agreeable isInert_agreeable 0 (.operation (.bootstrap ⟨5⟩))
  have hcreated := hroot.act agreeable isInert_agreeable 0
    (.operation (.create ⟨5⟩ ⟨7⟩ examplePair ⟨8⟩ [.always]))
  have hgranted := hcreated.act agreeable isInert_agreeable 0
    (.operation (.grant ⟨8⟩ ⟨6⟩ examplePair [.never]))
  have hne : RuleRef.of [.always] ≠ RuleRef.of [.never] := by decide +kernel
  have hpair : Set.InjOn RuleRef.of {[Rule.always], [Rule.never]} := by
    rintro rules hrules rules' hrules' heq
    rcases hrules with rfl | rfl
    · rcases hrules' with rfl | rfl
      · rfl
      · exact absurd heq hne
    · rcases hrules' with rfl | rfl
      · exact absurd heq.symm hne
      · rfl
  have hsupplied : ((∅ ∪ (Act.operation (η := Unit) (.bootstrap ⟨5⟩)).supplied) ∪
        (Act.operation (η := Unit) (.create ⟨5⟩ ⟨7⟩ examplePair ⟨8⟩ [.always])).supplied) ∪
        (Act.operation (η := Unit) (.grant ⟨8⟩ ⟨6⟩ examplePair [.never])).supplied ⊆
      {[Rule.always], [Rule.never]} := by
    rintro rules (((h | h) | ⟨e, h⟩) | h)
    · exact absurd h (Set.notMem_empty rules)
    · exact absurd h (Set.notMem_empty rules)
    · exact Or.inl (Prod.ext_iff.mp (Option.some.inj h)).2.symm
    · exact Or.inr h
  have hinjective := hpair.mono hsupplied
  refine ⟨_, _, _, hgranted, hinjective, ?_, ?_, ?_⟩
  · exact Or.inl (Or.inr ⟨_, rfl⟩)
  · exact Or.inr rfl
  · exact (refines_ledger hgranted hinjective).2 agreeable 1 (.grantees examplePair)

end World

end DelegatedAccess
