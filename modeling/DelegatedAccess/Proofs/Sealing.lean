import DelegatedAccess.Proofs.Burning
import DelegatedAccess.Proofs.Creation
import DelegatedAccess.Proofs.Rule.Failure
import DelegatedAccess.Proofs.Store.Grantees

/-!
# Pairs that are created burned

A pair can be created with a burned manager and without a grant. If it had no manager because it
never had one, then nobody is ever granted it. But if its manager was removed before, the grants
that were made until then are still there, and nobody can take them away any more.

The main result of this module is that the creation of a burned pair leaves the grants of the pair
as the oracles that were asked have left them, and that they stay so in every run. If there are
none, requests on the pair are denied ever after. Those who hold the pair without conditions hold it
ever after.
-/

namespace DelegatedAccess

variable {η ω : Type}

/-- The creation of a burned pair. -/
def Creation.burned (caller : Entity) (p : Pair) : Creation :=
  ⟨caller, p, none, .burn⟩

namespace Store

/-- The grants that count for the holder of a grant begin with it. -/
theorem holders_eq_cons {s : Store} {p : Pair} {e : Entity} {g : Grant}
    (h : s.grant? p e = some g) :
  ∃ rest, s.holders p e = (e, g) :: rest
  := by
  rw [holders]
  split
  · exact ⟨_, List.filterMap_cons_some (by rw [h, Option.map_some])⟩
  · exact ⟨_, List.filterMap_cons_some (by rw [h, Option.map_some])⟩

end Store

namespace World

variable {behave : Behaviour η ω} {now : UInt64} {w v u : World η ω}

/-- A request on a pair without grants is denied, and no oracle is asked. -/
theorem check_of_ungranted {req : Request}
    (h : ∀ e, w.current.store.grant? req.question.pair e = none) :
  (answer behave now (.check req)).run.run w = (.ok (.decision .denied), w)
  := by
  have hholders : w.current.store.holders req.question.pair req.question.who = [] := by
    apply List.eq_nil_iff_forall_not_mem.mpr
    rintro ⟨e, g⟩ hmem
    exact nomatch (h e).symm.trans (Store.mem_holders_iff.mp hmem).2
  rw [check_run, decide_run, hholders]
  rfl

/-- A request of an entity that holds a pair without conditions is granted, and no oracle is
asked. -/
theorem check_of_unconditional {req : Request}
    (h : w.current.store.grant? req.question.pair req.question.who = some .unconditional) :
  (answer behave now (.check req)).run.run w = (.ok (.decision .granted), w)
  := by
  obtain ⟨rest, hholders⟩ := Store.holders_eq_cons h
  rw [check_run, decide_run, hholders, List.map_cons, Decision.byGates_cons_run]
  rfl

/-- The creation of a burned pair changes nothing but the manager. -/
theorem store_of_createBurned {caller : Entity} {p : Pair} {decision : Decision}
    {receipt : Receipt} (nested : ∀ handle q u, Run u ((behave handle q).run u).2)
    (hdecide : (decide behave ((Creation.burned caller p).request w.current.config.resource
      now)).run w = (decision, v))
    (hperform : (perform behave now (.createBurned caller p)).run.run w = (.ok receipt, u)) :
  u.current.store = v.current.store.putManager p .burn
  := by
  have hsteps : w.StepsTo v := by
    have hsteps := decide_steps nested
      ((Creation.burned caller p).request w.current.config.resource now) w
    rwa [hdecide] at hsteps
  have hkind : (Operation.createBurned caller p).kind = .create (Creation.burned caller p) := rfl
  have houtcome := outcome_perform hkind hdecide (Store.Steps.isInitialized hsteps)
  rw [hperform] at houtcome
  cases houtcome with
  | done => exact Creation.store_draft (Creation.burned caller p) (Draft.start v.current.store)

/-- A pair that is created burned keeps the grants that it has when it is created, in every run, and
stays burned. If it has none, every request on it is denied ever after, and no oracle is asked about
it. An entity that holds it without conditions holds it ever after. -/
theorem sealed_forever (hw : w.IsReachable)
    (nested : ∀ handle q u, Run u ((behave handle q).run u).2) {caller : Entity} {p : Pair}
    {decision : Decision} {receipt : Receipt}
    (hdecide : (decide behave ((Creation.burned caller p).request w.current.config.resource
      now)).run w = (decision, v))
    (hperform : (perform behave now (.createBurned caller p)).run.run w = (.ok receipt, u))
    {x : World η ω} (hrun : Run u x) :
  x.current.store.manager? p = .ok (some .burn) ∧
    x.current.store.grantees p = v.current.store.grantees p ∧
    (v.current.store.grantees p = [] →
      ∀ (behave' : Behaviour η ω) (now' : UInt64) (req : Request), req.question.pair = p →
        (answer behave' now' (.check req)).run.run x = (.ok (.decision .denied), x)) ∧
    ∀ e, (e, .unconditional) ∈ v.current.store.grantees p →
      ∀ (behave' : Behaviour η ω) (now' : UInt64) (req : Request), req.question.pair = p →
        req.question.who = e →
          (answer behave' now' (.check req)).run.run x = (.ok (.decision .granted), x)
  := by
  have hstore := store_of_createBurned nested hdecide hperform
  have hact : Run w u := by
    have hrun := Run.act behave now (.operation (.createBurned caller p)) (Run.refl w) nested
    rwa [act, wrap_run, hperform] at hrun
  have hu := hw.run hact
  have hburned : u.current.store.manager? p = .ok (some .burn) := by
    rw [hstore, Store.manager?_putManager, if_pos rfl]
  have hpart := hrun.steps.part_of_burned hu.sound hburned
  have hgrantees : x.current.store.grantees p = v.current.store.grantees p := by
    rw [Store.grantees_eq_of_part hpart, hstore]
    rfl
  refine ⟨?_, hgrantees, ?_, ?_⟩
  · rw [Store.manager?_eq_of_part hpart, hburned]
  · rintro hnone behave' now' req rfl
    apply check_of_ungranted
    rwa [← Store.grantees_eq_nil_iff, hgrantees]
  · rintro e hmem behave' now' req rfl rfl
    apply check_of_unconditional
    rwa [← Store.mem_grantees_iff, hgrantees]

/-! ### An example -/

/-- A world in which the root holds the creation capability and some operations were performed. -/
def beforeSealing (operations : List Operation) : World Unit Unit :=
  play agreeable 0 ((.bootstrap ⟨5⟩ :: operations).map .operation) blank

/-- The pair is granted to an entity, and then its manager is removed. -/
def grantAndLeave : List Operation :=
  [.create ⟨5⟩ ⟨7⟩ examplePair ⟨8⟩ [], .removeManager ⟨8⟩ examplePair]

/-- What the creation of the burned pair comes to. -/
def sealing (operations : List Operation) : Except AccessError Receipt × World Unit Unit :=
  (perform agreeable 0 (.createBurned ⟨5⟩ examplePair)).run.run (beforeSealing operations)

/-- The manager is put in and announced. -/
def sealingReceipt : Receipt :=
  ⟨1, none, [.managerChanged examplePair (some .burn)]⟩

/-- A request on the pair. -/
def sealedRequest : Request :=
  ⟨⟨⟨7⟩, examplePair, []⟩, ⟨0, 0⟩⟩

/-- Such a world is reachable. -/
theorem isReachable_beforeSealing (operations : List Operation) :
  (beforeSealing operations).IsReachable
  := isReachable_play run_agreeable 0 _

/-- A pair that never had a manager is denied to everybody when it is created burned. -/
theorem sealed_forever_ungranted :
  (sealing []).1 = .ok sealingReceipt ∧ (sealing []).2.current.store.grantees examplePair = [] ∧
    ∀ (behave : Behaviour Unit Unit) (now : UInt64) (req : Request),
      req.question.pair = examplePair →
        (answer behave now (.check req)).run.run (sealing []).2 =
          (.ok (.decision .denied), (sealing []).2)
  := by
  have hok : (sealing []).1 = .ok sealingReceipt := by decide +kernel
  have hnone : (((decide agreeable ((Creation.burned ⟨5⟩ examplePair).request
      (beforeSealing []).current.config.resource 0)).run
        (beforeSealing [])).2.current.store.grantees examplePair) = [] := by
    decide +kernel
  have hperform : sealing [] = (.ok sealingReceipt, (sealing []).2) := Prod.ext hok rfl
  obtain ⟨_, hgrantees, hdenied, _⟩ := sealed_forever (isReachable_beforeSealing [])
    run_agreeable Prod.mk.eta.symm hperform (Run.refl _)
  exact ⟨hok, hgrantees.trans hnone, hdenied hnone⟩

/-- A pair is created burned although it is granted to an entity, which holds it ever after. -/
theorem leftover_grant_sealed :
  (sealing grantAndLeave).1 = .ok sealingReceipt ∧
    (sealing grantAndLeave).2.current.store.grantees examplePair = [(⟨7⟩, .unconditional)] ∧
    ((answer agreeable 0 (.check sealedRequest)).run.run (sealing grantAndLeave).2).1 =
      .ok (.decision .granted) ∧
    ¬ ∀ (w : World Unit Unit) (behave : Behaviour Unit Unit) (now : UInt64) (caller : Entity)
      (p : Pair) (receipt : Receipt) (u : World Unit Unit), w.IsReachable →
        (perform behave now (.createBurned caller p)).run.run w = (.ok receipt, u) →
          u.current.store.grantees p = [] ∧
            ∀ (behave' : Behaviour Unit Unit) (now' : UInt64) (req : Request),
              req.question.pair = p →
                ((answer behave' now' (.check req)).run.run u).1 = .ok (.decision .denied)
  := by
  have hok : (sealing grantAndLeave).1 = .ok sealingReceipt := by decide +kernel
  have hleft : (sealing grantAndLeave).2.current.store.grantees examplePair =
      [(⟨7⟩, .unconditional)] := by
    decide +kernel
  have hgranted : ((answer agreeable 0 (.check sealedRequest)).run.run
      (sealing grantAndLeave).2).1 = .ok (.decision .granted) := by
    decide +kernel
  refine ⟨hok, hleft, hgranted, ?_⟩
  intro hclaim
  have hperform : sealing grantAndLeave = (.ok sealingReceipt, (sealing grantAndLeave).2) :=
    Prod.ext hok rfl
  obtain ⟨hnone, _⟩ := hclaim _ _ _ _ _ _ _ (isReachable_beforeSealing grantAndLeave) hperform
  exact nomatch hleft.symm.trans hnone

end World

end DelegatedAccess
