import DelegatedAccess.Proofs.Operation

/-!
# What performing an operation comes to

Performing an operation screens its input, has a request decided if it creates a pair, and
commits at most one draft. An operation that fails commits nothing, so that it leaves the
world as it was, or as the decision on its request has left it. One that succeeds commits
the draft of its kind, and answers with the receipt of that draft.
-/

namespace DelegatedAccess

variable {η ω : Type}

namespace World

/-- The world with a draft committed to its instance. -/
def settle (w : World η ω) (d : Draft) : World η ω :=
  { w with current := { w.current with store := d.store }.publish d.receipt.events }

@[simp] theorem store_settle (w : World η ω) (d : Draft) :
  (w.settle d).current.store = d.store
  := rfl

/-- The world is read and left as it is. -/
theorem get_run {α : Type} (f : World η ω → Attempt η ω α) (w : World η ω) :
  (do f (← get) : Attempt η ω α).run.run w = (f w).run.run w
  := rfl

/-- A transaction that fails leaves the world, and one that succeeds settles its draft. -/
theorem commit_run (t : Transaction) (w : World η ω) :
  (commit t).run.run w =
    match t w.current.store with
    | .error e => (.error e, w)
    | .ok d => (.ok d.receipt, w.settle d)
  := by
  rw [commit, get_run, Instance.commit]
  cases t w.current.store <;> rfl

/-- Only a screening that accepts its input goes on. -/
theorem screened_run (screen : Except AccessError Unit) (m : Attempt η ω Receipt)
    (w : World η ω) :
  (do MonadExcept.ofExcept screen; m : Attempt η ω Receipt).run.run w =
    match screen with
    | .error e => (.error e, w)
    | .ok () => m.run.run w
  := by
  cases screen <;> rfl

/-- The creation of a pair: an initialized store, a caller that is no reserved entity, a
request that is granted, and then the transaction. -/
theorem establish_run {behave : Behaviour η ω} {now : UInt64} {c : Creation} {w v : World η ω}
    {decision : Decision}
    (h : (decide behave (c.request w.current.config.resource now)).run w = (decision, v)) :
  (establish behave now c.caller c.pair c.grantee c.manager).run.run w =
    if w.current.store.isInitialized = false then (.error (.initialization .notInitialized), w)
    else if c.caller.IsReserved then
      (.error (.unauthorized c.caller .createPermissions c.pair), w)
    else if decision = .granted then
      (commit (Transaction.create w.current.config.resource c.caller
        (w.current.store.holders w.current.creationPair c.caller) c.pair c.grantee
        c.manager)).run.run v
    else (.error (.unauthorized c.caller .createPermissions c.pair), v)
  := by
  unfold establish
  by_cases hinit : w.current.store.isInitialized = false
  · rw [if_pos hinit]
    change (if ¬ w.current.store.isInitialized = true then _ else _ :
      Attempt η ω Receipt).run.run w = _
    rw [if_pos (by simp [hinit])]
    rfl
  · rw [if_neg hinit]
    change (if ¬ w.current.store.isInitialized = true then _ else _ :
      Attempt η ω Receipt).run.run w = _
    rw [if_neg (by simpa using hinit)]
    by_cases hcaller : c.caller.IsReserved
    · rw [if_pos hcaller, if_pos hcaller]
      rfl
    · rw [if_neg hcaller, if_neg hcaller]
      change (if ((decide behave (c.request w.current.config.resource now)).run w).1 ≠ .granted
        then _ else _ : Attempt η ω Receipt).run.run
        ((decide behave (c.request w.current.config.resource now)).run w).2 = _
      rw [h, ite_not]
      split <;> rfl

/-- The transaction or the creation that an operation is about, once its input is screened. -/
def pursue (behave : Behaviour η ω) (now : UInt64) (resource : Resource) :
    Operation.Kind → Attempt η ω Receipt
  | .bootstrap root => commit (Transaction.bootstrap resource root now)
  | .freeze => commit Transaction.freeze
  | .create c => establish behave now c.caller c.pair c.grantee c.manager
  | .manage caller p task => commit (task.transaction caller p)

/-- An operation screens its input and then does what its kind is about. -/
theorem perform_run (behave : Behaviour η ω) (now : UInt64) (op : Operation) (w : World η ω) :
  (perform behave now op).run.run w =
    match op.kind.screen w.current.config with
    | .error e => (.error e, w)
    | .ok () => (pursue behave now w.current.config.resource op.kind).run.run w
  := by
  cases op with
  | bootstrap root =>
      rw [perform, get_run]
      apply screened_run
  | freeze => rfl
  | create caller e p m rules =>
      rw [perform, get_run, screened_run]
      have hscreen : (Operation.create caller e p m rules).kind.screen w.current.config = (do
          requireGrantee e
          requireActor m .manager
          w.current.config.acceptRules rules) := rfl
      rw [hscreen]
      cases requireGrantee e with
      | error err => rfl
      | ok _ =>
          change (do MonadExcept.ofExcept _; _ : Attempt η ω Receipt).run.run w = _
          rw [screened_run]
          cases requireActor m .manager with
          | error err => rfl
          | ok _ => apply screened_run
  | createBurned caller p => rfl
  | grant caller e p rules =>
      rw [perform, get_run, screened_run]
      have hscreen : (Operation.grant caller e p rules).kind.screen w.current.config = (do
          requireGrantee e
          w.current.config.acceptRules rules) := rfl
      rw [hscreen]
      cases requireGrantee e with
      | error err => rfl
      | ok _ => apply screened_run
  | revoke caller e p => rfl
  | setManager caller m p => apply screened_run
  | removeManager caller p => rfl
  | burnManager caller p => rfl

/-- What is decided before the transaction of an operation: the request of a creation. -/
def consult (behave : Behaviour η ω) (now : UInt64) (kind : Operation.Kind) :
    StateM (World η ω) Decision := do
  match kind with
  | .create c => decide behave (c.request (← get).current.config.resource now)
  | _ => return .granted

/-- Only the request of a creation is decided. -/
theorem consult_create (behave : Behaviour η ω) (now : UInt64) (c : Creation) (w : World η ω) :
  (consult behave now (.create c)).run w =
    (decide behave (c.request w.current.config.resource now)).run w
  := by
  rw [consult, StateT.run_bind, StateT.run_get, pure_bind]

/-- What an operation came to, from a world to another: it is refused at once, or refused once
its request has been decided, or it commits the draft of its kind. -/
inductive Performed (behave : Behaviour η ω) (now : UInt64) (kind : Operation.Kind)
    (w : World η ω) : Except AccessError Receipt → World η ω → Prop
  | refused (e : AccessError) : Performed behave now kind w (.error e) w
  | declined {v : World η ω} {decision : Decision} (e : AccessError)
      (hconsult : (consult behave now kind).run w = (decision, v)) :
      Performed behave now kind w (.error e) v
  | done {v : World η ω} {d : Draft} (hscreen : kind.screen w.current.config = .ok ())
      (hconsult : (consult behave now kind).run w = (.granted, v))
      (hdrafted : Drafted w.current.config.resource v.current.store kind d) :
      Performed behave now kind w (.ok d.receipt) (v.settle d)

/-- A transaction whose drafts are those of a kind commits one of them, or is refused. -/
theorem performed_commit {behave : Behaviour η ω} {now : UInt64} {kind : Operation.Kind}
    {w v : World η ω} {t : Transaction} (hscreen : kind.screen w.current.config = .ok ())
    (hconsult : (consult behave now kind).run w = (.granted, v))
    (ht : ∀ d, t v.current.store = .ok d →
      Drafted w.current.config.resource v.current.store kind d) :
  Performed behave now kind w ((commit t).run.run v).1 ((commit t).run.run v).2
  := by
  rw [commit_run]
  cases h : t v.current.store with
  | error e => apply Performed.declined e hconsult
  | ok d => apply Performed.done hscreen hconsult (ht d h)

/-- A creation with screened input has one of the three outcomes. -/
theorem performed_establish {behave : Behaviour η ω} {now : UInt64} {c : Creation}
    {w : World η ω} (hscreen : (Operation.Kind.create c).screen w.current.config = .ok ()) :
  Performed behave now (.create c) w
    ((establish behave now c.caller c.pair c.grantee c.manager).run.run w).1
    ((establish behave now c.caller c.pair c.grantee c.manager).run.run w).2
  := by
  rcases hconsult : (consult behave now (.create c)).run w with ⟨decision, v⟩
  have hdecide := hconsult
  rw [consult_create] at hdecide
  rw [establish_run hdecide]
  split
  · apply Performed.refused
  · split
    · apply Performed.refused
    next hcaller =>
      split
      next hgranted =>
        subst hgranted
        apply performed_commit hscreen hconsult
        intro d
        apply drafted_of_create hcaller
      next => apply Performed.declined _ hconsult

/-- Performing an operation has one of the three outcomes. -/
theorem performed_perform (behave : Behaviour η ω) (now : UInt64) (op : Operation)
    (w : World η ω) :
  Performed behave now op.kind w ((perform behave now op).run.run w).1
    ((perform behave now op).run.run w).2
  := by
  rw [perform_run]
  generalize op.kind = kind
  cases hscreen : kind.screen w.current.config with
  | error e => apply Performed.refused e
  | ok _ =>
      cases kind with
      | bootstrap root =>
          apply performed_commit hscreen rfl
          intro d
          apply drafted_of_bootstrap
      | freeze =>
          apply performed_commit hscreen rfl
          intro d
          apply drafted_of_freeze
      | manage caller p task =>
          apply performed_commit hscreen rfl
          intro d
          apply drafted_of_task
      | create c => apply performed_establish hscreen

end World

end DelegatedAccess
