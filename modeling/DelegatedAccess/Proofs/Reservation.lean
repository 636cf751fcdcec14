import DelegatedAccess.Proofs.Exclusivity
import DelegatedAccess.Proofs.Initialization

/-!
# Reserved entities are kept out

The two reserved entities stand for every entity and for no entity, and never act. A grant may be
to every entity and a pair may be burned, but apart from that no store ever names a reserved entity:
none is granted anything, none manages a pair, and none is the root.

No operation is performed for a reserved entity either, whatever the store holds. Even if it names
the caller as the manager of the pair, or grants the creation capability to every entity, the caller
is refused before an oracle is asked.
-/

namespace DelegatedAccess

variable {η ω : Type}

/-! ### Stores -/

namespace Store

/-- Reserved entities have no place in a store but two: a grant may be to every entity, and the
manager of a pair may be burned. -/
structure IsUnreserved (s : Store) : Prop where
  grants : ∀ k v, s.grants.get? k = some v → ∃ (p : Pair) (e : Entity), k = p.grantKey e ∧ e ≠ .burn
  managers : ∀ k v, s.managers.get? k = some v →
    ∃ (p : Pair) (m : Entity), k = p.key ∧ v = m.bytes ∧ (m = .burn ∨ ¬ m.IsReserved)
  /-- Nobody is found to hold a grant who may not. -/
  unheld : ∀ p, s.grant? p .burn = none
  /-- Managers can be read, and are as they may be. -/
  managed : ∀ p, ∃ m, s.manager? p = .ok m ∧ ∀ e, m = some e → e = .burn ∨ ¬ e.IsReserved
  root : ∀ root, s.root? = some root → ¬ root.IsReserved

/-- What is sound and rooted names no reserved entity where it may not. -/
theorem Sound.isUnreserved {s : Store} (h : s.Sound) (hrooted : s.Rooted) :
  s.IsUnreserved
  where
  grants k v hv := by
    obtain ⟨p, e, g, hk, -, he⟩ := h.grants k v hv
    exact ⟨p, e, hk, he⟩
  managers k v hv := h.managers k v hv
  unheld p := by
    rw [grant?]
    cases hv : s.grants.get? (p.grantKey .burn) with
    | none => rfl
    | some v =>
        obtain ⟨q, e, g, hk, -, he⟩ := h.grants _ v hv
        exact absurd (Pair.grantKey_injective hk).2.symm he
  managed p := h.manager? p
  root root hroot := hrooted.real root hroot

/-- Any number of steps leave a store rooted. -/
theorem Steps.rooted {s t : Store} (h : s.Steps t) (hs : s.Rooted) :
  t.Rooted
  := by
  induction h with
  | refl => exact hs
  | tail _ hstep ih => apply hstep.rooted ih

end Store

namespace World

/-- The store of a reachable world is rooted. -/
theorem IsReachable.rooted {w : World η ω} (h : w.IsReachable) :
  w.current.store.Rooted
  := by
  obtain ⟨w₀, ⟨config, hconfig⟩, hrun⟩ := h
  apply hrun.steps.rooted
  rw [Instance.store_start hconfig]
  apply Store.Rooted.empty

end World

/-! ### Callers -/

/-- Who asks for an operation, for what, and on which pair. Nobody in particular asks for the
initialization of an instance, or for a template. -/
def Operation.Kind.demand? : Operation.Kind → Option (Entity × Action × Pair)
  | .bootstrap _ => none
  | .freeze => none
  | .create c => some (c.caller, .createPermissions, c.pair)
  | .manage caller p task => some (caller, task.action, p)

/-- What a caller is told who may not act at all: what is wrong with the input, or else that the
instance is not initialized, or else that the action is not allowed. -/
def Operation.Kind.refusal (kind : Operation.Kind) (i : Instance η) (caller : Entity)
    (action : Action) (p : Pair) : AccessError :=
  match kind.screen i.config with
  | .error e => e
  | .ok () =>
      if i.store.isInitialized then .unauthorized caller action p
      else .initialization .notInitialized

/-- On an initialized instance, a caller who may not act is told so once the input is screened. -/
theorem Operation.Kind.refusal_of_initialized {kind : Operation.Kind} {i : Instance η}
    (hscreen : kind.screen i.config = .ok ()) (hinitialized : i.store.isInitialized = true)
    (caller : Entity) (action : Action) (p : Pair) :
  kind.refusal i caller action p = .unauthorized caller action p
  := by
  rw [refusal, hscreen]
  exact if_pos hinitialized

namespace World

/-- A reserved caller is refused by the creation of a pair before its request is decided. -/
theorem establish_reserved {c : Creation} (hcaller : c.caller.IsReserved)
    (behave : Behaviour η ω) (now : UInt64) (w : World η ω) :
  (establish behave now c.caller c.pair c.grantee c.manager).run.run w =
    (.error (if w.current.store.isInitialized then
      .unauthorized c.caller .createPermissions c.pair else .initialization .notInitialized), w)
  := by
  rw [establish_run rfl, if_pos hcaller]
  cases w.current.store.isInitialized <;> rfl

/-- A reserved caller is refused a task by the transaction, whoever is stored as the manager. -/
theorem commit_task_reserved {caller : Entity} (hcaller : caller.IsReserved) (p : Pair)
    (task : Task) (w : World η ω) :
  (commit (task.transaction caller p)).run.run w =
    (.error (if w.current.store.isInitialized then .unauthorized caller task.action p
      else .initialization .notInitialized), w)
  := by
  rw [commit_run, Task.transaction_eq, Store.requireManager_eq, if_pos hcaller]
  cases w.current.store.isInitialized <;> rfl

/-- Every operation is refused to a reserved caller, in any world. -/
theorem perform_reserved {op : Operation} {caller : Entity} {action : Action} {p : Pair}
    (hdemand : op.kind.demand? = some (caller, action, p)) (hcaller : caller.IsReserved)
    (behave : Behaviour η ω) (now : UInt64) (w : World η ω) :
  (perform behave now op).run.run w = (.error (op.kind.refusal w.current caller action p), w)
  := by
  rw [perform_run, Operation.Kind.refusal]
  cases op.kind.screen w.current.config with
  | error e => rfl
  | ok _ =>
      cases hkind : op.kind with
      | bootstrap root =>
          rw [hkind] at hdemand
          contradiction
      | freeze =>
          rw [hkind] at hdemand
          contradiction
      | create c =>
          rw [hkind] at hdemand
          obtain ⟨rfl, rfl, rfl⟩ := hdemand
          apply establish_reserved hcaller
      | manage caller' p' task =>
          rw [hkind] at hdemand
          obtain ⟨rfl, rfl, rfl⟩ := hdemand
          apply commit_task_reserved hcaller

/-- In a reachable world reserved entities have no place in the store but as the holder of a grant
to every entity and as the manager of a burned pair. In any world whatever, an operation is refused
to a reserved caller, with an error that does not depend on the oracles and that leaves the world as
it was: no oracle is asked, and nothing is changed. -/
theorem reserved_kept_out :
  (∀ w : World η ω, w.IsReachable → w.current.store.IsUnreserved) ∧
    ∀ (w : World η ω) (op : Operation) (caller : Entity) (action : Action) (p : Pair),
      op.kind.demand? = some (caller, action, p) → caller.IsReserved →
        ∀ (behave : Behaviour η ω) (now : UInt64),
          (perform behave now op).run.run w =
            (.error (op.kind.refusal w.current caller action p), w)
  := by
  constructor
  · intro w hw
    apply hw.sound.isUnreserved hw.rooted
  · intro w op caller action p hdemand hcaller behave now
    apply perform_reserved hdemand hcaller

/-! ### An example -/

/-- A world in which everybody may create pairs, and in which a pair was burned. -/
def publicWorld : World Unit Unit :=
  play agreeable 0
    [.operation (.bootstrap ⟨5⟩), .operation (.grant ⟨5⟩ .any (Transaction.creationPair ⟨1⟩) []),
      .operation (.create ⟨7⟩ ⟨7⟩ examplePair ⟨8⟩ []), .operation (.burnManager ⟨8⟩ examplePair)]
    blank

/-- The stored manager of the burned pair is reserved, and the creation capability is granted to
every entity. Neither helps a reserved caller, though any other caller may create a pair. -/
theorem reserved_kept_out_public :
  publicWorld.IsReachable ∧ publicWorld.current.store.IsUnreserved ∧
    publicWorld.current.store.manager? examplePair = .ok (some .burn) ∧
    publicWorld.current.store.grant? (Transaction.creationPair ⟨1⟩) .any = some .unconditional ∧
    ∀ (behave : Behaviour Unit Unit) (now : UInt64),
      (perform behave now (.setManager .burn ⟨6⟩ examplePair)).run.run publicWorld =
          (.error (.unauthorized .burn .setManager examplePair), publicWorld) ∧
        (perform behave now (.createBurned .any otherPair)).run.run publicWorld =
          (.error (.unauthorized .any .createPermissions otherPair), publicWorld)
  := by
  have hw : publicWorld.IsReachable := isReachable_play run_agreeable 0 _
  obtain ⟨hmanager, hgrant, hinitialized⟩ :
      publicWorld.current.store.manager? examplePair = .ok (some .burn) ∧
        publicWorld.current.store.grant? (Transaction.creationPair ⟨1⟩) .any =
          some .unconditional ∧
        publicWorld.current.store.isInitialized = true := by
    decide +kernel
  refine ⟨hw, reserved_kept_out.1 publicWorld hw, hmanager, hgrant, ?_⟩
  intro behave now
  constructor
  · rw [reserved_kept_out.2 publicWorld _ _ _ _ rfl (Or.inr rfl) behave now,
      Operation.Kind.refusal_of_initialized rfl hinitialized]
    rfl
  · rw [reserved_kept_out.2 publicWorld _ _ _ _ rfl (Or.inl rfl) behave now,
      Operation.Kind.refusal_of_initialized rfl hinitialized]

end World

end DelegatedAccess
