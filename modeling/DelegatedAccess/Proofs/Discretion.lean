import DelegatedAccess.Proofs.Burning
import DelegatedAccess.Proofs.Verdict

/-!
# Refusals reveal nothing about a pair

Whoever does not manage a pair is refused every change of it, and whoever is not granted the
creation capability is refused to create it. What such a caller is told does not depend on what
becomes of the pair: whether it was never created, lost its manager, has another manager or is
burned.

The main result of this module compares two worlds that agree on what is public, and in the case of
creations on the capability of the caller: the errors are the same in both.
-/

namespace DelegatedAccess

/-- A flaw of the input has nothing to do with who the caller is. -/
theorem Operation.Kind.flaw?_ne_unauthorized {config : Config} {kind : Operation.Kind}
    {e : AccessError} (h : kind.flaw? config = some e) (x : Entity) (a : Action) (p : Pair) :
  e ≠ .unauthorized x a p
  := by
  rintro rfl
  cases kind with
  | bootstrap root => grind [flaw?]
  | freeze => contradiction
  | create c => grind [flaw?, Config.flaw?]
  | manage caller p task => cases task <;> grind [flaw?, Config.flaw?]

/-! ### Stores with the same rule sequences -/

namespace Store

/-- Two stores hold the same rule sequences under the references under which both hold one. -/
def AgreeOnRules (s t : Store) : Prop :=
  ∀ k bs bs', s.rules.get? k = some bs → t.rules.get? k = some bs' → bs = bs'

variable {s t : Store}

/-- A store agrees with those that keep its rule sequences. -/
theorem KeepsRules.agreeOnRules (h : s.KeepsRules t) :
  s.AgreeOnRules t
  := by
  intro k bs bs' hbs hbs'
  exact Option.some.inj ((h k bs hbs).symm.trans hbs')

/-- A grant that two sound stores both hold has the same gate in both, when they agree on rule
sequences. -/
theorem AgreeOnRules.gate_eq (h : s.AgreeOnRules t) (hs : s.Sound) (ht : t.Sound) {p : Pair}
    {e : Entity} {g : Grant} (hg : s.grant? p e = some g) (hg' : t.grant? p e = some g) :
  t.gate g = s.gate g
  := by
  cases g with
  | unconditional => rfl
  | conditional r =>
      obtain ⟨bs, hbs⟩ := Option.isSome_iff_exists.mp (hs.backed p e r hg)
      obtain ⟨bs', hbs'⟩ := Option.isSome_iff_exists.mp (ht.backed p e r hg')
      obtain rfl := h _ _ _ hbs hbs'
      rw [gate, gate, loadRules, loadRules, hbs, hbs']

end Store

namespace World

variable {η η' ω ω' : Type} {answers : Answers} {behave : Behaviour η ω}
    {behave' : Behaviour η' ω'} {w : World η ω} {v : World η' ω'}

/-! ### Comparable worlds -/

/-- Two reachable worlds have initialized instances under one configuration, and oracles that only
answer, and answer the same. Nothing is said about what the stores hold. -/
structure Comparable (answers : Answers) (behave : Behaviour η ω) (behave' : Behaviour η' ω')
    (w : World η ω) (v : World η' ω') : Prop where
  reachable : w.IsReachable
  reachable' : v.IsReachable
  initialized : w.current.store.isInitialized = true
  initialized' : v.current.store.isInitialized = true
  config : v.current.config = w.current.config
  inert : behave.IsInert
  inert' : behave'.IsInert
  answering : (panel behave w.current).AnswersAs answers
  answering' : (panel behave' v.current).AnswersAs answers

/-- Requests are decided the same in comparable worlds, when the grants that count for them and the
rule sequences are the same. -/
theorem Comparable.decide_eq (h : Comparable answers behave behave' w v)
    (hrules : w.current.store.AgreeOnRules v.current.store) {req : Request}
    (hsame : Store.SameHolders req.question.pair req.question.who w.current.store
      v.current.store) :
  ((decide behave req).run w).1 = ((decide behave' req).run v).1
  := by
  have hgates := Store.gates_eq_of_holders (Store.holders_eq_iff.mpr hsame)
    fun _ _ hg hg' => hrules.gate_eq h.reachable.sound h.reachable'.sound hg hg'
  have hdepth := congrArg Config.maxDepth h.config
  exact (decide_eq_of_gates (h.answering.alike h.answering') hdepth hgates trivial).1

/-! ### Refusals -/

/-- Whoever does not manage a pair is refused for the flaw of the input, if it has one, and else as
unauthorized. The world stays as it is. -/
theorem perform_of_not_manager (hs : w.current.store.Sound) (hinert : behave.IsInert)
    (hinitialized : w.current.store.isInitialized = true) (now : UInt64) {op : Operation}
    {caller : Entity} {p : Pair} {task : Task} (hop : op.kind = .manage caller p task)
    (hmanager : caller.IsReserved ∨ w.current.store.manager? p ≠ .ok (some caller)) :
  (perform behave now op).run.run w =
    (.error ((op.kind.flaw? w.current.config).getD (.unauthorized caller task.action p)), w)
  := by
  rw [perform_verdict hs hinert, hop, Operation.Kind.refusal?, Operation.Kind.obstacle?,
    if_neg (by simp [hinitialized]), if_pos hmanager, Option.or_some]
  rfl

/-- A creation is refused as unauthorized when its input has no flaw and the caller is reserved or
is not granted the creation capability. -/
theorem perform_create_unauthorized_iff (hs : w.current.store.Sound) (hinert : behave.IsInert)
    (hinitialized : w.current.store.isInitialized = true) (now : UInt64) {op : Operation}
    {c : Creation} (hop : op.kind = .create c) (x : Entity) (a : Action) (q : Pair) :
  ((perform behave now op).run.run w).1 = .error (.unauthorized x a q) ↔
    op.kind.flaw? w.current.config = none ∧
      (c.caller.IsReserved ∨
        ((decide behave (c.request w.current.config.resource now)).run w).1 ≠ .granted) ∧
      (c.caller, Action.createPermissions, c.pair) = (x, a, q)
  := by
  have hnot : ¬ w.current.store.isInitialized = false := by simp [hinitialized]
  rw [perform_verdict hs hinert, hop, Operation.Kind.refusal?, consult_create]
  cases hflaw : (Operation.Kind.create c).flaw? w.current.config with
  | some e =>
      have hne := Operation.Kind.flaw?_ne_unauthorized hflaw x a q
      simp [hne]
  | none =>
      rw [Option.none_or, Operation.Kind.obstacle?, if_neg hnot]
      by_cases hrefused : c.caller.IsReserved ∨
          ((decide behave (c.request w.current.config.resource now)).run w).1 ≠ .granted
      · rw [if_pos hrefused]
        simp [hrefused]
      · rw [if_neg hrefused]
        by_cases hmanaged : w.current.store.manager? c.pair ≠ .ok none
        · rw [if_pos hmanaged]
          simp [hrefused]
        · rw [if_neg hmanaged]
          simp [hrefused]

/-! ### Two worlds -/

/-- In two comparable worlds, whoever manages a pair in neither is refused every change of it with
the same error, which the call and the configuration determine, whatever becomes of the pair in
either. Whoever is granted the creation capability alike in both is refused a creation as
unauthorized in both or in neither, with the same error. -/
theorem refusals_discreet (h : Comparable answers behave behave' w v) (now : UInt64)
    (op : Operation) :
  (∀ caller p task, op.kind = .manage caller p task →
    caller.IsReserved ∨ w.current.store.manager? p ≠ .ok (some caller) →
    caller.IsReserved ∨ v.current.store.manager? p ≠ .ok (some caller) →
    ∃ e, (perform behave now op).run.run w = (.error e, w) ∧
      (perform behave' now op).run.run v = (.error e, v) ∧
      e = (op.kind.flaw? w.current.config).getD (.unauthorized caller task.action p)) ∧
  ∀ c, op.kind = .create c → w.current.store.AgreeOnRules v.current.store →
    Store.SameHolders w.current.creationPair c.caller w.current.store v.current.store →
    ∀ x a q, ((perform behave now op).run.run w).1 = .error (.unauthorized x a q) ↔
      ((perform behave' now op).run.run v).1 = .error (.unauthorized x a q)
  := by
  have hs := h.reachable.sound
  have hs' := h.reachable'.sound
  constructor
  · intro caller p task hop hmanager hmanager'
    have hv := perform_of_not_manager hs' h.inert' h.initialized' now hop hmanager'
    rw [h.config] at hv
    exact ⟨_, perform_of_not_manager hs h.inert h.initialized now hop hmanager, hv, rfl⟩
  · intro c hop hrules hsame x a q
    have hdecide : ((decide behave (c.request w.current.config.resource now)).run w).1 =
        ((decide behave' (c.request w.current.config.resource now)).run v).1 :=
      h.decide_eq hrules hsame
    rw [perform_create_unauthorized_iff hs h.inert h.initialized now hop,
      perform_create_unauthorized_iff hs' h.inert' h.initialized' now hop, h.config, hdecide]

/-! ### An example -/

/-- A world in which an entity may create pairs on one resource only. -/
def cautiousWorld : World Unit Unit :=
  play agreeable 0
    [.operation (.bootstrap ⟨5⟩),
      .operation (.grant ⟨5⟩ ⟨6⟩ (Transaction.creationPair ⟨1⟩) [.argument 1 (.compare .eq) 9])]
    blank

/-- The same world after the root has created a pair on another resource. -/
def occupiedWorld : World Unit Unit :=
  play agreeable 0 [.operation (.create ⟨5⟩ ⟨7⟩ otherPair ⟨8⟩ [.always])] cautiousWorld

/-- The entity is told the same in both worlds when it tries to grant the pair to itself, and when
it tries to create the pair, which is there in one world only. -/
theorem refusals_discreet_occupied :
  Comparable (fun _ => none) agreeable agreeable cautiousWorld
      occupiedWorld ∧
    cautiousWorld.current.store.manager? otherPair = .ok none ∧
    occupiedWorld.current.store.manager? otherPair = .ok (some ⟨8⟩) ∧
    (∃ e, ((perform agreeable 1 (.grant ⟨6⟩ ⟨6⟩ otherPair [])).run.run
        cautiousWorld).1 = .error e ∧
      ((perform agreeable 1 (.grant ⟨6⟩ ⟨6⟩ otherPair [])).run.run
        occupiedWorld).1 = .error e) ∧
    ((perform agreeable 1 (.create ⟨6⟩ ⟨7⟩ otherPair ⟨8⟩ [])).run.run
        occupiedWorld).1 = .error (.unauthorized ⟨6⟩ .createPermissions otherPair)
  := by
  have hw : cautiousWorld.IsReachable := isReachable_play run_agreeable 0 _
  have hrun : Run cautiousWorld occupiedWorld := Run.play run_agreeable 0 _ (Run.refl _)
  have hanswering : ∀ {i : Instance Unit}, i.oracles = [] →
      (panel (agreeable : Behaviour Unit Unit) i).AnswersAs fun _ => none := by
    intro i hnone e
    rw [panel, Instance.oracle?, hnone]
    exact Option.Rel.none
  obtain ⟨hinitialized, hinitialized', hconfig, horacles, horacles', hfree, hmanaged, hsame,
      hrefused⟩ :
      cautiousWorld.current.store.isInitialized = true ∧
        occupiedWorld.current.store.isInitialized = true ∧
        occupiedWorld.current.config = cautiousWorld.current.config ∧
        cautiousWorld.current.oracles = [] ∧ occupiedWorld.current.oracles = [] ∧
        cautiousWorld.current.store.manager? otherPair = .ok none ∧
        occupiedWorld.current.store.manager? otherPair = .ok (some ⟨8⟩) ∧
        Store.SameHolders cautiousWorld.current.creationPair ⟨6⟩ cautiousWorld.current.store
          occupiedWorld.current.store ∧
        ((perform agreeable 1 (.create ⟨6⟩ ⟨7⟩ otherPair ⟨8⟩ [])).run.run
          cautiousWorld).1 = .error (.unauthorized ⟨6⟩ .createPermissions otherPair) := by
    decide +kernel
  have hcomparable :
      Comparable (fun _ => none) agreeable agreeable cautiousWorld occupiedWorld :=
    ⟨hw, hw.run hrun, hinitialized, hinitialized', hconfig, isInert_agreeable, isInert_agreeable,
      hanswering horacles, hanswering horacles'⟩
  have hrules := (hrun.steps.keepsRules).agreeOnRules
  obtain ⟨hgrant, _⟩ := refusals_discreet hcomparable 1 (.grant ⟨6⟩ ⟨6⟩ otherPair [])
  obtain ⟨_, hcreate⟩ := refusals_discreet hcomparable 1 (.create ⟨6⟩ ⟨7⟩ otherPair ⟨8⟩ [])
  obtain ⟨e, he, he', _⟩ := hgrant ⟨6⟩ otherPair (.grant ⟨6⟩ []) rfl
    (.inr (by rw [hfree]; decide)) (.inr (by rw [hmanaged]; decide))
  exact ⟨hcomparable, hfree, hmanaged, ⟨e, congrArg Prod.fst he, congrArg Prod.fst he'⟩,
    (hcreate _ rfl hrules hsame _ _ _).mp hrefused⟩

end World

end DelegatedAccess
