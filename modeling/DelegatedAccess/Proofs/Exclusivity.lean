import DelegatedAccess.Proofs.Run

/-!
# Who changes a pair

Whatever is done with an instance, and by whom, the manager and the grants of a pair change
in three ways only: by a task of the manager of the pair, by the creation of the pair by a
caller whose creation capability is granted, or by the initialization of the instance. The
last two are for pairs without a manager.

So the manager of a pair follows a fixed course: a pair gets a manager when it has none, its
manager hands it over, takes itself off, or burns it, and a burned manager remains.
-/

namespace DelegatedAccess

variable {η ω : Type}

/-! ### The course of a manager -/

/-- The manager of a pair after a task of its manager. -/
def Task.successor (manager : Entity) : Task → Option Entity
  | grant .. => some manager
  | revoke _ => some manager
  | setManager m => some m
  | removeManager => none
  | burnManager => some .burn

namespace Store

/-- The manager after a task. -/
theorem manager?_task {s : Store} {p : Pair} {caller : Entity}
    (h : s.manager? p = .ok (some caller)) (task : Task) :
  (task.change p s).manager? p = .ok (task.successor caller)
  := by
  cases task with
  | grant e rules =>
      rw [Task.change, manager?_putGate, h]
      rfl
  | revoke e => exact h
  | setManager m =>
      rw [Task.change, manager?_putManager, if_pos rfl]
      rfl
  | removeManager =>
      rw [Task.change, manager?_eraseManager, if_pos rfl]
      rfl
  | burnManager =>
      rw [Task.change, manager?_putManager, if_pos rfl]
      rfl

/-- The manager after a creation. -/
theorem manager?_creation (c : Creation) (s : Store) :
  (c.change s).manager? c.pair = .ok (some c.manager)
  := by
  rw [Creation.change, manager?_putManager, if_pos rfl]

/-- The manager after initialization. -/
theorem manager?_bootstrap (s : Store) (resource : Resource) (root : Entity) (now : UInt64) :
  (s.bootstrap resource root now).manager? (Transaction.creationPair resource) = .ok (some root)
  := by
  change ((s.putGrant _ root .unconditional).putManager _ root).manager? _ = _
  rw [manager?_putManager, if_pos rfl]

/-- In a sound store a pair has no manager, or a real actor, or is burned. -/
theorem Sound.manager? {s : Store} (h : s.Sound) (p : Pair) :
  ∃ m, s.manager? p = .ok m ∧ ∀ e, m = some e → e = .burn ∨ ¬ e.IsReserved
  := by
  cases hv : s.managers.get? p.key with
  | none =>
      use none
      constructor
      · rw [Store.manager?, hv]
      · intro e he
        contradiction
  | some v =>
      obtain ⟨q, m, _, rfl, hm⟩ := h.managers _ _ hv
      use some m, manager?_of_get? hv
      intro e he
      rwa [← Option.some.inj he]

end Store

namespace World

/-- The oracles leave the instance alone. -/
def Behaviour.IsInert (behave : Behaviour η ω) : Prop :=
  ∀ handle q w, ((behave handle q).run w).2.current = w.current

/-- Oracles that only say yes leave the instance alone. -/
theorem isInert_agreeable :
  (agreeable : Behaviour η ω).IsInert
  := fun _ _ _ => rfl

section

variable {behave : Behaviour η ω} (h : behave.IsInert)

include h

/-- Oracles that leave the instance alone move worlds among those with the same instance. -/
theorem Behaviour.IsInert.movesWithin :
  behave.MovesWithin fun u v => v.current = u.current
  := h

/-- A decision leaves the instance alone. -/
theorem Behaviour.IsInert.current_decide (req : Request) (w : World η ω) :
  ((decide behave req).run w).2.current = w.current
  := decide_moves h.movesWithin (fun _ => rfl) (fun _ _ _ huv hvw => hvw.trans huv) req w

/-- The decision on the request of a creation leaves the instance alone. -/
theorem Behaviour.IsInert.current_consult (now : UInt64) (kind : Operation.Kind)
    (w : World η ω) :
  ((consult behave now kind).run w).2.current = w.current
  := consult_moves h.movesWithin (fun _ => rfl) (fun _ _ _ huv hvw => hvw.trans huv) now kind w

/-- A query leaves the instance alone. -/
theorem Behaviour.IsInert.current_answer (now : UInt64) (q : Query) (w : World η ω) :
  ((answer behave now q).run.run w).2.current = w.current
  := answer_moves h.movesWithin (fun _ => rfl) (fun _ _ _ huv hvw => hvw.trans huv) now q w

end

/-- How an operation may change a pair, and its manager from one to another. -/
inductive Change (behave : Behaviour η ω) (now : UInt64) (w : World η ω) (p : Pair) :
    Operation.Kind → Option Entity → Option Entity → Prop
  /-- By a task of the manager, who is a real actor and is succeeded by a real actor, if by
  anyone, unless the pair is burned. -/
  | manage (caller : Entity) (task : Task) (hcaller : ¬ caller.IsReserved)
      (hsuccessor : ∀ m, task.successor caller = some m → m = .burn ∨ ¬ m.IsReserved) :
      Change behave now w p (.manage caller p task) (some caller) (task.successor caller)
  /-- By a creation, for a caller that is a real actor and is granted the creation
  capability. The pair is burned at once if it is granted to nobody. -/
  | create (c : Creation) (hpair : c.pair = p) (hcaller : ¬ c.caller.IsReserved)
      (hgranted : ((decide behave (c.request w.current.config.resource now)).run w).1 = .granted)
      (hmanager : (c.grantee = none ∧ c.manager = .burn) ∨ ¬ c.manager.IsReserved) :
      Change behave now w p (.create c) none (some c.manager)
  /-- By initialization, of a store that is neither initialized nor a template, for the pair
  of the creation capability. The root becomes its manager. -/
  | bootstrap (root : Entity) (hpair : p = w.current.creationPair)
      (hinitialized : w.current.store.isInitialized = false)
      (hfrozen : w.current.store.isFrozen = false) (hroot : ¬ root.IsReserved) :
      Change behave now w p (.bootstrap root) none (some root)

/-- A draft that is different for a pair is such a change. -/
theorem change_of_drafted {behave : Behaviour η ω} {now : UInt64} {w v : World η ω} {p : Pair}
    {kind : Operation.Kind} {d : Draft} (hs : w.current.store.Sound) (hv : v.current = w.current)
    (hinput : kind.IsWellFormed)
    (hconsult : (consult behave now kind).run w = (.granted, v))
    (hdrafted : Drafted w.current.config.resource v.current.store kind d)
    (hpart : d.store.part p ≠ w.current.store.part p) :
  ∃ m m', w.current.store.manager? p = .ok m ∧ d.store.manager? p = .ok m' ∧
    Change behave now w p kind m m'
  := by
  rw [hv] at hdrafted
  cases hdrafted with
  | bootstrap root now' hfrozen hinitialized =>
      change (w.current.store.bootstrap w.current.config.resource root now').part p ≠ _ at hpart
      have hpair : p = w.current.creationPair := by
        by_contra hne
        apply hpart (Store.part_bootstrap_of_ne hne _ root now')
      subst hpair
      refine ⟨none, some root, ?_, Store.manager?_bootstrap _ _ root now', ?_⟩
      · rw [Store.manager?, hs.unmanaged hinitialized, Table.get?_empty]
      · apply Change.bootstrap root rfl hinitialized hfrozen hinput
  | freeze hfrozen hinitialized => exact absurd (Store.part_putAbout _ _ _ p) hpart
  | refreeze hfrozen => exact absurd rfl hpart
  | create c hinitialized hcaller hfree =>
      rw [Creation.store_draft] at hpart
      have hpair : c.pair = p := by
        by_contra hne
        apply hpart (Store.part_creation_of_ne (Ne.symm hne) _)
      subst hpair
      refine ⟨none, some c.manager, hfree, ?_, ?_⟩
      · rw [Creation.store_draft]
        apply Store.manager?_creation
      · rw [consult_create] at hconsult
        apply Change.create c rfl hcaller (by rw [hconsult])
        obtain ⟨caller, p, grantee, m⟩ := c
        cases grantee with
        | none => exact Or.inl ⟨rfl, hinput⟩
        | some g => exact Or.inr hinput.2.1
  | manage caller q task hinitialized hcaller hmanager =>
      rw [Task.store_draft] at hpart
      have hpair : q = p := by
        by_contra hne
        apply hpart (Store.part_task_of_ne (Ne.symm hne) task _)
      subst hpair
      refine ⟨some caller, task.successor caller, hmanager, ?_, ?_⟩
      · rw [Task.store_draft]
        apply Store.manager?_task hmanager
      · apply Change.manage caller task hcaller
        intro m hm
        cases task with
        | grant e rules => exact Or.inr (Option.some.inj hm ▸ hcaller)
        | revoke e => exact Or.inr (Option.some.inj hm ▸ hcaller)
        | setManager m' => exact Or.inr (Option.some.inj hm ▸ hinput)
        | removeManager => contradiction
        | burnManager => exact Or.inl (Option.some.inj hm).symm

/-- A burned manager is never succeeded. -/
theorem Change.ne_burn {behave : Behaviour η ω} {now : UInt64} {w : World η ω} {p : Pair}
    {kind : Operation.Kind} {m m' : Option Entity} (h : Change behave now w p kind m m') :
  m ≠ some .burn
  := by
  rintro rfl
  cases h with
  | manage caller task hcaller hsuccessor => apply hcaller (Or.inr rfl)

/-- An act after which the part of a pair is different is an operation that succeeded, and
one of those that may change the pair. -/
theorem change_of_act {w : World η ω} (hs : w.current.store.Sound) {behave : Behaviour η ω}
    (hinert : behave.IsInert) (now : UInt64) (a : Act η) (p : Pair)
    (hpart : ((act behave now a).run.run w).2.current.store.part p ≠ w.current.store.part p) :
  ∃ op receipt m m', a = .operation op ∧
    ((act behave now a).run.run w).1 = .ok (.receipt receipt) ∧
    w.current.store.manager? p = .ok m ∧
    ((act behave now a).run.run w).2.current.store.manager? p = .ok m' ∧
    Change behave now w p op.kind m m'
  := by
  cases a with
  | operation op =>
      rw [act, wrap_run] at hpart ⊢
      have hperform := performed_perform behave now op w
      have hconsult := hinert.current_consult now op.kind w
      generalize (perform behave now op).run.run w = result at hperform hpart ⊢
      obtain ⟨result, u⟩ := result
      cases hperform with
      | refused e => exact absurd rfl hpart
      | declined e hv =>
          rw [hv] at hconsult
          exact absurd (by rw [hconsult]) hpart
      | done hscreen hv hdrafted =>
          rw [hv] at hconsult
          obtain ⟨m, m', hm, hm', hchange⟩ := change_of_drafted hs hconsult
            (Operation.isWellFormed_kind hscreen) hv hdrafted hpart
          exact ⟨op, _, m, m', rfl, rfl, hm, hm', hchange⟩
  | query q =>
      rw [act, wrap_run, hinert.current_answer] at hpart
      exact absurd rfl hpart
  | register e handle => exact absurd rfl hpart
  | addSink name => exact absurd rfl hpart
  | reopen config template =>
      rw [reopen_run] at hpart
      split at hpart
      · exact absurd rfl hpart
      next i hi =>
        rcases Instance.store_reopen hi with hsame | ⟨d, hd, hstore⟩
        · exact absurd (by rw [hsame]) hpart
        · cases hd with
          | freeze hfrozen hinitialized => exact absurd (by rw [hstore]; rfl) hpart
          | refreeze hfrozen => exact absurd (by rw [hstore]; rfl) hpart

/-- In a reachable world a pair has no manager, or a real actor, or is burned. When its
manager or any of its grants is different after an act, with oracles that leave the instance
alone, then the act is an operation that succeeded, and the pair was not burned. It is a task
of the manager of the pair, or the pair had no manager and it is the creation of the pair with
the creation capability or the initialization of the instance. -/
theorem pair_exclusive {w : World η ω} (hw : w.IsReachable) {behave : Behaviour η ω}
    (hinert : behave.IsInert) (now : UInt64) (a : Act η) (p : Pair) :
  (∃ m, w.current.store.manager? p = .ok m ∧ ∀ e, m = some e → e = .burn ∨ ¬ e.IsReserved) ∧
    (((act behave now a).run.run w).2.current.store.part p ≠ w.current.store.part p →
      ∃ op receipt m m', a = .operation op ∧
        ((act behave now a).run.run w).1 = .ok (.receipt receipt) ∧
        w.current.store.manager? p = .ok m ∧
        ((act behave now a).run.run w).2.current.store.manager? p = .ok m' ∧
        m ≠ some .burn ∧ Change behave now w p op.kind m m')
  := by
  constructor
  · apply hw.sound.manager?
  · intro hpart
    obtain ⟨op, receipt, m, m', ha, hresult, hm, hm', hchange⟩ :=
      change_of_act hw.sound hinert now a p hpart
    exact ⟨op, receipt, m, m', ha, hresult, hm, hm', hchange.ne_burn, hchange⟩

/-! ### An example -/

/-- A world in which the root created a pair for a manager. -/
def managedWorld : World Unit Unit :=
  play agreeable 0
    [.operation (.bootstrap ⟨5⟩), .operation (.create ⟨5⟩ ⟨7⟩ examplePair ⟨8⟩ [])]
    blank

/-- The manager of the pair can hand it over, and whoever does has to be its manager. -/
theorem pair_exclusive_handover :
  managedWorld.IsReachable ∧
    ∃ receipt m m',
      ((act agreeable 1 (.operation (.setManager ⟨8⟩ ⟨6⟩ examplePair))).run.run
        managedWorld).1 = .ok (.receipt receipt) ∧
      managedWorld.current.store.manager? examplePair = .ok m ∧ m ≠ some .burn ∧
      Change agreeable 1 managedWorld examplePair
        (.manage ⟨8⟩ examplePair (.setManager ⟨6⟩)) m m'
  := by
  have hw : managedWorld.IsReachable := isReachable_play run_agreeable 0 _
  have hpart : ((act agreeable 1
      (.operation (.setManager ⟨8⟩ ⟨6⟩ examplePair))).run.run managedWorld).2.current.store.part
        examplePair ≠ managedWorld.current.store.part examplePair := by
    decide +kernel
  obtain ⟨op, receipt, m, m', ha, hresult, hm, _, hburn, hchange⟩ :=
    (pair_exclusive hw isInert_agreeable 1 (.operation (.setManager ⟨8⟩ ⟨6⟩ examplePair))
      examplePair).2 hpart
  obtain rfl := Act.operation.inj ha
  exact ⟨hw, receipt, m, m', hresult, hm, hburn, hchange⟩

end World

end DelegatedAccess
