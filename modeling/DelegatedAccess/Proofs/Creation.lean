import DelegatedAccess.Proofs.Run

/-!
# Creations make sure of their authority

While oracles are asked whether a caller holds the creation capability, they may operate on the
very instance that asks them. What was decided on may then be revoked, or the pair created by
another. The transaction of a creation therefore looks again: it goes through only if the grants
that were decided on are still the same and the pair has no manager.

The main result of this module is that a creation that succeeds does so on a store of this kind
and changes what it is about and nothing else, and that one that fails leaves the store as the
oracles have left it.
-/

namespace DelegatedAccess

variable {η ω : Type}

/-! ### What a creation changes -/

/-- One store differs from another by a creation: the grant, if there is one, is put in, with its
rule sequence where nothing was stored under its digest, and the manager is put in. -/
structure Creation.Effect (c : Creation) (s t : Store) : Prop where
  grants : ∀ k, t.grants.get? k =
    match c.grantee with
    | none => s.grants.get? k
    | some (e, rules) =>
        if k = c.pair.grantKey e then some (Grant.under rules).encode else s.grants.get? k
  rules : ∀ k, t.rules.get? k =
    match c.grantee with
    | none => s.rules.get? k
    | some (_, rules) =>
        if rules ≠ [] ∧ k = (RuleRef.of rules).bytes ∧ s.rules.get? k = none then
          some (Rule.encodeAll rules)
        else s.rules.get? k
  managers : ∀ k, t.managers.get? k =
    if k = c.pair.key then some c.manager.bytes else s.managers.get? k
  about : t.about = s.about

/-- What a creation makes of a store differs from it by the creation. -/
theorem Creation.effect_change (c : Creation) (s : Store) :
  c.Effect s (c.change s)
  := by
  obtain ⟨caller, p, grantee, m⟩ := c
  cases grantee with
  | none =>
      exact ⟨fun _ => rfl, fun _ => rfl, fun k => Table.get?_insert s.managers p.key m.bytes k, rfl⟩
  | some g =>
      obtain ⟨e, rules⟩ := g
      refine ⟨?_, ?_, ?_, ?_⟩
      · intro k
        change (s.putGate p e rules).grants.get? k = _
        rw [Store.grants_putGate, Table.get?_insert]
      · intro k
        apply Store.get?_rules_putGate
      · intro k
        change ((s.putGate p e rules).managers.insert p.key m.bytes).get? k = _
        rw [Store.managers_putGate, Table.get?_insert]
      · exact Store.about_creation ⟨caller, p, some (e, rules), m⟩ s

/-! ### What a creation is decided on -/

namespace Store

/-- The grants of a pair that count for an entity, its own and that to every entity, are the same
in two stores. -/
def SameHolders (p : Pair) (e : Entity) (s t : Store) : Prop :=
  t.grant? p e = s.grant? p e ∧ t.grant? p .any = s.grant? p .any

instance (p : Pair) (e : Entity) (s t : Store) : Decidable (SameHolders p e s t) :=
  inferInstanceAs (Decidable (_ ∧ _))

/-- The list of the grants that count for an entity is the same when each of them is. -/
theorem holders_eq_iff {s t : Store} {p : Pair} {e : Entity} :
  t.holders p e = s.holders p e ↔ SameHolders p e s t
  := by
  constructor
  · intro h
    have hsame : ∀ f, f = e ∨ f = .any → t.grant? p f = s.grant? p f := by
      intro f hf
      apply Option.ext
      intro g
      have ht := mem_holders_iff (s := t) (p := p) (e := e) (f := f) (g := g)
      have hs := mem_holders_iff (s := s) (p := p) (e := e) (f := f) (g := g)
      rw [h, hs] at ht
      simpa [hf] using ht.symm
    exact ⟨hsame e (Or.inl rfl), hsame .any (Or.inr rfl)⟩
  · rintro ⟨he, hany⟩
    rw [holders, holders]
    split <;> simp [List.filterMap_cons, he, hany]

/-- A step leaves a store initialized. -/
theorem Step.isInitialized {s t : Store} (h : s.Step t) (hs : s.isInitialized = true) :
  t.isInitialized = true
  := by
  cases h with
  | bootstrap resource root now hroot hfrozen hinitialized => apply isInitialized_bootstrap
  | freeze hfrozen hinitialized => rwa [isInitialized_freeze]
  | refreeze hfrozen => exact hs
  | create c hinput hinitialized hcaller hfree => rwa [Store.isInitialized, about_creation]
  | manage caller p task hinput hinitialized hcaller hmanager =>
      rwa [Store.isInitialized, about_task]

/-- Any number of steps leave a store initialized. -/
theorem Steps.isInitialized {s t : Store} (h : s.Steps t) (hs : s.isInitialized = true) :
  t.isInitialized = true
  := by
  induction h with
  | refl => exact hs
  | tail _ hstep ih => apply hstep.isInitialized ih

end Store

/-! ### Creations -/

/-- An instance considers a creation when it takes the input, is initialized, and the caller is no
reserved entity. Only then is the request of the creation decided. -/
structure Creation.IsConsidered (c : Creation) (i : Instance η) : Prop where
  screened : c.screen i.config = .ok ()
  initialized : i.store.isInitialized = true
  actor : ¬ c.caller.IsReserved

instance (c : Creation) (i : Instance η) : Decidable (c.IsConsidered i) :=
  decidable_of_iff
    (c.screen i.config = .ok () ∧ i.store.isInitialized = true ∧ ¬ c.caller.IsReserved)
    ⟨fun ⟨hscreened, hinitialized, hactor⟩ => ⟨hscreened, hinitialized, hactor⟩,
      fun h => ⟨h.screened, h.initialized, h.actor⟩⟩

/-- What a creation came to, from a world `w`, when its request was decided in some way, if at all,
and the oracles that were asked have left a world `v`. -/
inductive Creation.Outcome (c : Creation) (w v : World η ω) (decision : Decision) :
    Except AccessError Receipt → World η ω → Prop
  /-- No oracle was asked. -/
  | refused (e : AccessError) (hconsidered : ¬ c.IsConsidered w.current) :
      Outcome c w v decision (.error e) w
  | declined (hconsidered : c.IsConsidered w.current) (hdecision : decision ≠ .granted) :
      Outcome c w v decision (.error (.unauthorized c.caller .createPermissions c.pair)) v
  /-- A grant that was decided on is not the same any more. -/
  | outdated (hconsidered : c.IsConsidered w.current) (hdecision : decision = .granted)
      (hchanged : ¬ Store.SameHolders w.current.creationPair c.caller w.current.store
        v.current.store) :
      Outcome c w v decision (.error (.unauthorized c.caller .createPermissions c.pair)) v
  | managed (manager : Entity) (hconsidered : c.IsConsidered w.current)
      (hdecision : decision = .granted)
      (hsame : Store.SameHolders w.current.creationPair c.caller w.current.store v.current.store)
      (hmanager : v.current.store.manager? c.pair = .ok (some manager)) :
      Outcome c w v decision (.error (.managerExists c.pair)) v
  /-- The manager of the pair cannot be read. -/
  | damaged (e : AccessError) (hconsidered : c.IsConsidered w.current)
      (hdecision : decision = .granted)
      (hsame : Store.SameHolders w.current.creationPair c.caller w.current.store v.current.store)
      (hmanager : v.current.store.manager? c.pair = .error e) :
      Outcome c w v decision (.error e) v
  | done (hconsidered : c.IsConsidered w.current) (hdecision : decision = .granted)
      (hinitialized : v.current.store.isInitialized = true)
      (hsame : Store.SameHolders w.current.creationPair c.caller w.current.store v.current.store)
      (hfree : v.current.store.manager? c.pair = .ok none) :
      Outcome c w v decision (.ok (c.draft (Draft.start v.current.store)).receipt)
        (v.settle (c.draft (Draft.start v.current.store)))

namespace World

variable {behave : Behaviour η ω} {now : UInt64} {c : Creation} {w v : World η ω}
  {decision : Decision}

/-- The transaction of a creation whose request was granted has an outcome of the creation. -/
theorem outcome_commit (hconsidered : c.IsConsidered w.current)
    (hinitialized : v.current.store.isInitialized = true) {result : Except AccessError Receipt}
    {u : World η ω}
    (h : (commit (Transaction.create w.current.config.resource c.caller
      (w.current.store.holders w.current.creationPair c.caller) c.pair c.grantee
      c.manager)).run.run v = (result, u)) :
  c.Outcome w v .granted result u
  := by
  have hsame : v.current.store.holders (Transaction.creationPair w.current.config.resource)
      c.caller = w.current.store.holders w.current.creationPair c.caller ↔
      Store.SameHolders w.current.creationPair c.caller w.current.store v.current.store :=
    Store.holders_eq_iff
  rw [commit_run, Transaction.create_eq, if_neg (by simp [hinitialized])] at h
  by_cases hseen : v.current.store.holders (Transaction.creationPair w.current.config.resource)
      c.caller = w.current.store.holders w.current.creationPair c.caller
  · rw [if_neg (not_not.mpr hseen)] at h
    cases hmanager : v.current.store.manager? c.pair with
    | error e =>
        rw [hmanager] at h
        obtain ⟨rfl, rfl⟩ := Prod.mk.inj h
        apply Creation.Outcome.damaged e hconsidered rfl (hsame.mp hseen) hmanager
    | ok m =>
        rw [hmanager] at h
        cases m with
        | none =>
            obtain ⟨rfl, rfl⟩ := Prod.mk.inj h
            apply Creation.Outcome.done hconsidered rfl hinitialized (hsame.mp hseen) hmanager
        | some m =>
            obtain ⟨rfl, rfl⟩ := Prod.mk.inj h
            apply Creation.Outcome.managed m hconsidered rfl (hsame.mp hseen) hmanager
  · rw [if_pos hseen] at h
    obtain ⟨rfl, rfl⟩ := Prod.mk.inj h
    apply Creation.Outcome.outdated hconsidered rfl (mt hsame.mpr hseen)

/-- A creation has one of the outcomes, as long as the oracles do not undo the initialization. -/
theorem outcome_perform {op : Operation} (hop : op.kind = .create c)
    (hdecide : (decide behave (c.request w.current.config.resource now)).run w = (decision, v))
    (hinitialized : w.current.store.isInitialized = true → v.current.store.isInitialized = true) :
  c.Outcome w v decision ((perform behave now op).run.run w).1
    ((perform behave now op).run.run w).2
  := by
  rw [perform_run, hop]
  cases hscreen : Operation.Kind.screen w.current.config (.create c) with
  | error e => exact Creation.Outcome.refused e fun h => nomatch hscreen.symm.trans h.screened
  | ok _ =>
      dsimp only
      rw [pursue, establish_run hdecide]
      split
      next hnot => exact Creation.Outcome.refused _ fun h => nomatch hnot.symm.trans h.initialized
      next hinit =>
        split
        next hcaller => exact Creation.Outcome.refused _ fun h => h.actor hcaller
        next hcaller =>
          have hconsidered : c.IsConsidered w.current :=
            ⟨hscreen, Bool.not_eq_false _ ▸ hinit, hcaller⟩
          split
          next hgranted =>
            subst hgranted
            apply outcome_commit hconsidered (hinitialized hconsidered.initialized) rfl
          next hnot => apply Creation.Outcome.declined hconsidered hnot

/-- A creation succeeds only when its request was granted and, on the store that the oracles have
left, the instance is initialized, the grants that were decided on are still the same, and the pair
has no manager. It then changes that store by the grant, its rule sequence and the manager. When
the request was granted but one of those grants is not the same, the caller is not authorized, and
else when the pair has a manager, this is said. A creation that fails leaves what the oracles have
left, or the world as it was when none were asked. -/
theorem creation_verified {behave : Behaviour η ω}
    (nested : ∀ handle q u, Run u ((behave handle q).run u).2) {now : UInt64} {op : Operation}
    {c : Creation} (hop : op.kind = .create c) {w v u : World η ω} {decision : Decision}
    {result : Except AccessError Receipt}
    (hdecide : (decide behave (c.request w.current.config.resource now)).run w = (decision, v))
    (hperform : (perform behave now op).run.run w = (result, u)) :
  (∀ receipt, result = .ok receipt →
      c.IsConsidered w.current ∧ decision = .granted ∧ v.current.store.isInitialized = true ∧
        Store.SameHolders w.current.creationPair c.caller w.current.store v.current.store ∧
        v.current.store.manager? c.pair = .ok none ∧
        c.Effect v.current.store u.current.store) ∧
    (c.IsConsidered w.current → decision = .granted →
      (¬ Store.SameHolders w.current.creationPair c.caller w.current.store v.current.store →
        result = .error (.unauthorized c.caller .createPermissions c.pair)) ∧
      (Store.SameHolders w.current.creationPair c.caller w.current.store v.current.store →
        (∀ m, v.current.store.manager? c.pair = .ok (some m) →
          result = .error (.managerExists c.pair)) ∧
        (v.current.store.manager? c.pair = .ok none → ∃ receipt, result = .ok receipt))) ∧
    ∀ e, result = .error e →
      (c.IsConsidered w.current → u = v) ∧ (¬ c.IsConsidered w.current → u = w)
  := by
  have hsteps : w.StepsTo v := by
    have hmoves := decide_moves (R := StepsTo) (fun handle q u => (nested handle q u).steps)
      (fun _ => Relation.ReflTransGen.refl) (fun _ _ _ => Relation.ReflTransGen.trans)
      (c.request w.current.config.resource now) w
    rwa [hdecide] at hmoves
  have houtcome := outcome_perform hop hdecide (Store.Steps.isInitialized hsteps)
  rw [hperform] at houtcome
  refine ⟨?_, ?_, ?_⟩
  · rintro receipt rfl
    cases houtcome with
    | done hconsidered hdecision hinitialized hsame hfree =>
        have heffect : c.Effect v.current.store
            (v.settle (c.draft (Draft.start v.current.store))).current.store := by
          rw [store_settle, Creation.store_draft]
          apply Creation.effect_change
        exact ⟨hconsidered, hdecision, hinitialized, hsame, hfree, heffect⟩
  · intro hconsidered hgranted
    constructor
    · intro hchanged
      cases houtcome with
      | refused e hnot => exact absurd hconsidered hnot
      | declined _ hdecision => rfl
      | outdated _ _ _ => rfl
      | managed m _ _ hsame _ => exact absurd hsame hchanged
      | damaged e _ _ hsame _ => exact absurd hsame hchanged
      | done _ _ _ hsame _ => exact absurd hsame hchanged
    · intro hsame
      cases houtcome with
      | refused e hnot => exact absurd hconsidered hnot
      | declined _ hdecision => exact absurd hgranted hdecision
      | outdated _ _ hchanged => exact absurd hsame hchanged
      | managed m _ _ _ hmanager =>
          refine ⟨fun _ _ => rfl, fun hfree => ?_⟩
          exact nomatch hfree.symm.trans hmanager
      | damaged e _ _ _ hmanager =>
          refine ⟨fun m hm => ?_, fun hfree => ?_⟩
          · exact nomatch hm.symm.trans hmanager
          · exact nomatch hfree.symm.trans hmanager
      | done _ _ _ _ hfree =>
          refine ⟨fun m hm => ?_, fun _ => ⟨_, rfl⟩⟩
          exact nomatch hfree.symm.trans hm
  · rintro e rfl
    cases houtcome with
    | refused e hnot => exact ⟨fun hconsidered => absurd hconsidered hnot, fun _ => rfl⟩
    | declined hconsidered _ => exact ⟨fun _ => rfl, fun hnot => absurd hconsidered hnot⟩
    | outdated hconsidered _ _ => exact ⟨fun _ => rfl, fun hnot => absurd hconsidered hnot⟩
    | managed m hconsidered _ _ _ => exact ⟨fun _ => rfl, fun hnot => absurd hconsidered hnot⟩
    | damaged e hconsidered _ _ _ => exact ⟨fun _ => rfl, fun hnot => absurd hconsidered hnot⟩

/-! ### An example -/

/-- The creation of the pair by a caller who holds the creation capability under an oracle. -/
def contestedCreation : Creation :=
  ⟨⟨6⟩, examplePair, some (⟨7⟩, [.always]), ⟨6⟩⟩

/-- Oracles that say yes, after the operation that they stand for has been performed. -/
def rivalOracles : Behaviour Operation Unit :=
  fun op _ w => (true, ((act agreeable 0 (.operation op)).run.run w).2)

/-- A world in which the creation depends on an oracle that performs an operation first. -/
def contestedWorld (rival : Operation) : World Operation Unit :=
  play rivalOracles 0
    [.operation (.bootstrap ⟨5⟩), .register ⟨3⟩ rival,
      .operation (.grant ⟨5⟩ ⟨6⟩ (Transaction.creationPair ⟨1⟩) [.oracle ⟨3⟩])]
    blank

/-- What is decided on the request of the creation, and the world that the oracle has left. -/
def contestedDecision (rival : Operation) : Decision × World Operation Unit :=
  (decide rivalOracles (contestedCreation.request (contestedWorld rival).current.config.resource
    0)).run (contestedWorld rival)

/-- The oracle that was asked has left the grants that the creation was decided on as they were. -/
abbrev IsUncontested (rival : Operation) : Prop :=
  Store.SameHolders (contestedWorld rival).current.creationPair ⟨6⟩
    (contestedWorld rival).current.store (contestedDecision rival).2.current.store

/-- What the creation comes to. -/
def contestedResult (rival : Operation) : Except AccessError Receipt × World Operation Unit :=
  (perform rivalOracles 0 (.create ⟨6⟩ ⟨7⟩ examplePair ⟨6⟩ [.always])).run.run
    (contestedWorld rival)

/-- Another creation of the pair. -/
def rivalCreation : Operation :=
  .create ⟨5⟩ ⟨7⟩ examplePair ⟨8⟩ []

/-- The revocation of the creation capability that the creation is decided on. -/
def rivalRevocation : Operation :=
  .revoke ⟨5⟩ ⟨6⟩ (Transaction.creationPair ⟨1⟩)

/-- The creation of another pair. -/
def otherCreation : Operation :=
  .createBurned ⟨5⟩ otherPair

/-- The creation finds out that the oracle that was asked has created the pair, or revoked the
capability, and leaves what the oracle has left. It succeeds when the oracle has only created
another pair. -/
theorem creation_verified_contested :
  contestedResult rivalCreation =
      (.error (.managerExists examplePair), (contestedDecision rivalCreation).2) ∧
    contestedResult rivalRevocation =
      (.error (.unauthorized ⟨6⟩ .createPermissions examplePair),
        (contestedDecision rivalRevocation).2) ∧
    contestedCreation.Effect (contestedDecision otherCreation).2.current.store
      (contestedResult otherCreation).2.current.store
  := by
  have nested : ∀ (op : Operation) (q : Question) (u : World Operation Unit),
      Run u ((rivalOracles op q).run u).2 :=
    fun op _ u => Run.act agreeable 0 (.operation op) (Run.refl u) run_agreeable
  have hkind : (Operation.create ⟨6⟩ ⟨7⟩ examplePair ⟨6⟩ [.always]).kind =
      .create contestedCreation := rfl
  have hdecision : ∀ rival, contestedDecision rival =
      ((contestedDecision rival).1, (contestedDecision rival).2) := fun _ => Prod.mk.eta.symm
  have hresult : ∀ rival, contestedResult rival =
      ((contestedResult rival).1, (contestedResult rival).2) := fun _ => Prod.mk.eta.symm
  have hverified := fun rival => creation_verified nested hkind (hdecision rival) (hresult rival)
  obtain ⟨hasked, hcreation, hmanager, hrevocation, hother, hfree⟩ :
      (∀ rival ∈ [rivalCreation, rivalRevocation, otherCreation],
        contestedCreation.IsConsidered (contestedWorld rival).current ∧
          (contestedDecision rival).1 = .granted) ∧
        IsUncontested rivalCreation ∧
        (contestedDecision rivalCreation).2.current.store.manager? examplePair =
          .ok (some ⟨8⟩) ∧
        ¬ IsUncontested rivalRevocation ∧ IsUncontested otherCreation ∧
        (contestedDecision otherCreation).2.current.store.manager? examplePair = .ok none := by
    decide +kernel
  refine ⟨?_, ?_, ?_⟩
  · obtain ⟨_, hfound, hleft⟩ := hverified rivalCreation
    obtain ⟨hconsidered, hgranted⟩ := hasked rivalCreation (by simp)
    have hmanaged : (contestedResult rivalCreation).1 = .error (.managerExists examplePair) :=
      ((hfound hconsidered hgranted).2 hcreation).1 ⟨8⟩ hmanager
    rw [hresult rivalCreation, hmanaged, (hleft _ hmanaged).1 hconsidered]
  · obtain ⟨_, hfound, hleft⟩ := hverified rivalRevocation
    obtain ⟨hconsidered, hgranted⟩ := hasked rivalRevocation (by simp)
    have hrevoked : (contestedResult rivalRevocation).1 =
        .error (.unauthorized ⟨6⟩ .createPermissions examplePair) :=
      (hfound hconsidered hgranted).1 hrevocation
    rw [hresult rivalRevocation, hrevoked, (hleft _ hrevoked).1 hconsidered]
  · obtain ⟨hdone, hfound, _⟩ := hverified otherCreation
    obtain ⟨hconsidered, hgranted⟩ := hasked otherCreation (by simp)
    obtain ⟨receipt, hreceipt⟩ := ((hfound hconsidered hgranted).2 hother).2 hfree
    obtain ⟨_, _, _, _, _, heffect⟩ := hdone receipt hreceipt
    exact heffect

end World

end DelegatedAccess
