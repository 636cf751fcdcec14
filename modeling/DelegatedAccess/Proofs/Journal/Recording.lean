import DelegatedAccess.Proofs.Host
import DelegatedAccess.Proofs.Journal.Account

/-!
# Journals of runs

A host can keep a journal of the instance: whenever a transaction is committed, it notes the
events of the transaction. What oracles do while they are consulted is noted before the events of
the operation that consults them, and the opening of a store as a template is noted too.

The main result of this module is that every run can be recorded in this way, and that the
journal gives an account of the store at the end: exactly what is granted, who manages what, the
root, whether the store is a template, and each rule sequence once.
-/

namespace DelegatedAccess

variable {η ω : Type}

/-- The events of the transaction that an act has committed to a store, given what the act came
to. Opening a store as a template commits the transaction that makes it one, and its receipt is
not part of the reply. -/
def Act.events (a : Act η) (s : Store) : Except AccessError Reply → List Event
  | .ok (.receipt receipt) => receipt.events
  | .ok (.answer _) => []
  | .ok .done =>
      match a with
      | .reopen _ true => ((Transaction.freeze s).toOption.map fun d => d.receipt.events).getD []
      | _ => []
  | .error _ => []

namespace World

/-- Does something with the instance of a world whose host keeps a journal, and notes the events
of the transaction that is committed. -/
def record (behave : Behaviour η (ω × List Event)) (now : UInt64) (a : Act η)
    (w : World η (ω × List Event)) : World η (ω × List Event) :=
  let (result, v) := (act behave now a).run.run w
  v.forget.keeping (v.notes ++ a.events w.current.store result)

/-- A run in which the host notes the events of every transaction that is committed, be it by an
act of the run or by what an oracle does. Otherwise the host leaves the journal alone. -/
inductive Recorded : World η (ω × List Event) → World η (ω × List Event) → Prop
  | refl (w : World η (ω × List Event)) : Recorded w w
  | act {w v : World η (ω × List Event)} (behave : Behaviour η (ω × List Event)) (now : UInt64)
      (a : Act η) (run : Recorded w v)
      (nested : ∀ handle q u, Recorded u ((behave handle q).run u).2) :
      Recorded w (record behave now a v)
  | host {w v : World η (ω × List Event)} (state : ω) (run : Recorded w v) :
      Recorded w { v with host := (state, v.notes) }

/-- Does things with the instance one after another, and notes the events of each. -/
def recordAll (behave : Behaviour η (ω × List Event)) (now : UInt64) (acts : List (Act η))
    (w : World η (ω × List Event)) : World η (ω × List Event) :=
  acts.foldl (fun w a => record behave now a w) w

/-- Things done one after another are recorded when what oracles do is. -/
theorem Recorded.all {behave : Behaviour η (ω × List Event)}
    (nested : ∀ handle q u, Recorded u ((behave handle q).run u).2) (now : UInt64)
    (acts : List (Act η)) {w v : World η (ω × List Event)} (h : Recorded w v) :
  Recorded w (recordAll behave now acts v)
  := by
  induction acts generalizing v with
  | nil => exact h
  | cons a acts ih =>
      apply ih
      apply Recorded.act behave now a h nested

/-! ### Every run can be recorded -/

/-- Whatever was noted before, a run can be recorded. -/
theorem Run.recorded {w v : World η ω} (h : Run w v) (journal : List Event) :
  ∃ journal', Recorded (w.keeping journal) (v.keeping journal')
  := by
  induction h generalizing journal with
  | refl w => exact ⟨journal, Recorded.refl _⟩
  | @act w v behave now a run nested ih ihnested =>
      obtain ⟨journal₁, hrun⟩ := ih journal
      choose next hnext using ihnested
      -- the oracles do what they did, and the events of that are noted
      let behave' : Behaviour η (ω × List Event) := fun handle q u =>
        (((behave handle q).run u.forget).1,
          ((behave handle q).run u.forget).2.keeping (next handle q u.forget u.notes))
      have halike : Behaviour.Alike (fun u u' => u.forget = u') behave' behave := by
        rintro handle q u _ rfl
        exact ⟨rfl, rfl⟩
      have hact := alike_act halike sameInstance_forget now a (v.keeping journal₁) v rfl
      have hrecord : record behave' now a (v.keeping journal₁) =
          ((World.act behave now a).run.run v).2.keeping
            (record behave' now a (v.keeping journal₁)).notes := by
        rw [← hact.2]
        rfl
      refine ⟨_, hrecord ▸ Recorded.act behave' now a hrun ?_⟩
      intro handle q u
      apply hnext handle q u.forget u.notes
  | host state run ih =>
      obtain ⟨journal', hrun⟩ := ih journal
      exact ⟨journal', Recorded.host state hrun⟩

/-! ### Journals give an account -/

/-- The journal of a world gives an account of its store. -/
def IsTold (w : World η (ω × List Event)) : Prop :=
  (Account.ofEvents w.notes).Describes w.current.store

/-- A world stays told of when the events of a draft are noted with the draft. -/
theorem IsTold.settle {w : World η (ω × List Event)} (h : w.IsTold) {resource : Resource}
    {kind : Operation.Kind} {d : Draft} (hd : Drafted resource w.current.store kind d) :
  (Account.ofEvents (w.notes ++ d.receipt.events)).Describes d.store
  := by
  rw [Account.ofEvents, Account.after_append]
  exact hd.isTold h

/-- What is done is told of when what oracles do is. -/
theorem IsTold.record {behave : Behaviour η (ω × List Event)}
    (h : behave.MovesWithin fun u v => u.IsTold → v.IsTold) (now : UInt64) (a : Act η)
    {w : World η (ω × List Event)} (hw : w.IsTold) :
  (record behave now a w).IsTold
  := by
  have hrefl : ∀ w : World η (ω × List Event), w.IsTold → w.IsTold := fun _ => id
  have htrans : ∀ u v w : World η (ω × List Event), (u.IsTold → v.IsTold) →
      (v.IsTold → w.IsTold) → u.IsTold → w.IsTold := fun _ _ _ huv hvw => hvw ∘ huv
  -- without events of its own, an act leaves what the oracles have left
  have hsilent : ∀ v : World η (ω × List Event), v.IsTold →
      (v.forget.keeping (v.notes ++ [])).IsTold := by
    intro v hv
    rw [List.append_nil]
    exact hv
  dsimp only [World.record]
  cases a with
  | operation op =>
      rw [act, wrap_run]
      have hperform := performed_perform behave now op w
      have hconsult := consult_moves h hrefl htrans now op.kind w hw
      generalize (perform behave now op).run.run w = result at hperform ⊢
      obtain ⟨result, v⟩ := result
      cases hperform with
      | refused e => exact hsilent _ hw
      | declined e hv =>
          rw [hv] at hconsult
          exact hsilent v hconsult
      | done hscreen hv hdrafted =>
          rw [hv] at hconsult
          exact hconsult.settle hdrafted
  | query q =>
      rw [act, wrap_run]
      have hanswer := answer_moves h hrefl htrans now q w hw
      generalize (answer behave now q).run.run w = result at hanswer ⊢
      obtain ⟨result, v⟩ := result
      cases result <;> exact hsilent v hanswer
  | register e handle => exact hsilent _ hw
  | addSink name => exact hsilent _ hw
  | reopen config template =>
      rw [reopen_run, Instance.reopen_eq]
      cases config.validate with
      | error e => exact hsilent w hw
      | ok _ =>
          cases template with
          | false => exact hsilent _ hw
          | true =>
              dsimp only
              cases hfreeze : Transaction.freeze w.current.store with
              | error e => exact hsilent w hw
              | ok d =>
                  have hdrafted : Drafted config.resource w.current.store .freeze d :=
                    drafted_of_freeze hfreeze
                  rw [if_pos rfl]
                  dsimp only [Act.events]
                  rw [hfreeze]
                  exact hw.settle hdrafted

/-- A recorded run keeps the account of its journal right. -/
theorem Recorded.isTold {w v : World η (ω × List Event)} (h : Recorded w v) (hw : w.IsTold) :
  v.IsTold
  := by
  induction h with
  | refl _ => exact hw
  | act behave now a _ _ ih ihnested => apply (ih hw).record ihnested
  | host state _ ih => exact ih hw

/-- Every run from an empty store can be recorded, and what a journal of such a run tells is
exactly what the store holds: its grants and managers, its root and whether it is a template, and
the keys of its rule sequences with their lengths, each told once. -/
theorem journal_describes {w₀ : World η ω} (hfresh : w₀.IsFresh) :
  (∀ w, Run w₀ w → ∃ journal, Recorded (w₀.keeping []) (w.keeping journal)) ∧
    ∀ (w : World η ω) (journal : List Event), Recorded (w₀.keeping []) (w.keeping journal) →
      (Account.ofEvents journal).Describes w.current.store
  := by
  constructor
  · intro w hrun
    apply hrun.recorded
  · intro w journal hrecorded
    have hstart : (w₀.keeping ([] : List Event)).IsTold := by
      obtain ⟨config, hconfig⟩ := hfresh
      have hempty : w₀.current.store = .empty := Instance.store_start hconfig
      change Account.empty.Describes w₀.current.store
      rw [hempty]
      apply Account.Describes.empty
    exact hrecorded.isTold hstart

/-! ### An example -/

/-- Oracles that say yes to everything, having granted a pair before. -/
def grantingOracles : Behaviour Unit (Unit × List Event) :=
  fun _ _ w => (true, record agreeable 0
    (.operation (.grant ⟨8⟩ ⟨6⟩ examplePair [.always])) w)

/-- A world with a journal: the creation capability was granted under an oracle, which granted
another pair when it was consulted, and that pair lost a grant and its manager afterwards. -/
def auditedWorld : World Unit (Unit × List Event) :=
  recordAll grantingOracles 0
    [.operation (.bootstrap ⟨5⟩), .operation (.create ⟨5⟩ ⟨7⟩ examplePair ⟨8⟩ [.always]),
      .register ⟨3⟩ (),
      .operation (.grant ⟨5⟩ ⟨6⟩ (Transaction.creationPair ⟨1⟩) [.oracle ⟨3⟩]),
      .operation (.create ⟨6⟩ ⟨7⟩ otherPair ⟨6⟩ []),
      .operation (.revoke ⟨8⟩ ⟨7⟩ examplePair), .operation (.removeManager ⟨8⟩ examplePair)]
    ((blank : World Unit Unit).keeping [])

/-- The journal of that world. The ninth event is of what the oracle did, and comes before those of
the creation that consulted it. -/
def auditedJournal : List Event :=
  [.permissionSet ⟨5⟩ (Transaction.creationPair ⟨1⟩) true none,
    .managerChanged (Transaction.creationPair ⟨1⟩) (some ⟨5⟩), .initialized ⟨5⟩,
    .permissionSet ⟨7⟩ examplePair true (some (RuleRef.of [.always])),
    .rulesStored ⟨7⟩ examplePair (RuleRef.of [.always]) 1,
    .managerChanged examplePair (some ⟨8⟩),
    .permissionSet ⟨6⟩ (Transaction.creationPair ⟨1⟩) true (some (RuleRef.of [.oracle ⟨3⟩])),
    .rulesStored ⟨6⟩ (Transaction.creationPair ⟨1⟩) (RuleRef.of [.oracle ⟨3⟩]) 1,
    .permissionSet ⟨6⟩ examplePair true (some (RuleRef.of [.always])),
    .permissionSet ⟨7⟩ otherPair true none,
    .managerChanged otherPair (some ⟨6⟩),
    .permissionSet ⟨7⟩ examplePair false none, .managerChanged examplePair none]

/-- The journal tells each rule sequence once, and gives an account of the store at the end. -/
theorem journal_describes_nested :
  (blank : World Unit Unit).IsFresh ∧
    Recorded ((blank : World Unit Unit).keeping []) auditedWorld ∧
    auditedWorld.notes = auditedJournal ∧
    (Account.ofEvents auditedJournal).Describes auditedWorld.current.store
  := by
  have hfresh := isFresh_blank (η := Unit)
  have hquiet : ∀ (handle : Unit) (q : Question) (u : World Unit (Unit × List Event)),
      Recorded u ((agreeable handle q).run u).2 := fun _ _ u => Recorded.refl u
  have hnested : ∀ (handle : Unit) (q : Question) (u : World Unit (Unit × List Event)),
      Recorded u ((grantingOracles handle q).run u).2 :=
    fun _ _ u => Recorded.act agreeable 0
      (.operation (.grant ⟨8⟩ ⟨6⟩ examplePair [.always])) (Recorded.refl u) hquiet
  have hrecorded : Recorded ((blank : World Unit Unit).keeping [])
      auditedWorld := Recorded.all hnested 0 _ (Recorded.refl _)
  have hdescribes : ∀ w : World Unit (Unit × List Event),
      Recorded ((blank : World Unit Unit).keeping []) w →
        (Account.ofEvents w.notes).Describes w.current.store :=
    fun w hw => (journal_describes hfresh).2 w.forget w.notes hw
  have hnotes : auditedWorld.notes = auditedJournal := by decide +kernel
  refine ⟨hfresh, hrecorded, hnotes, ?_⟩
  rw [← hnotes]
  apply hdescribes auditedWorld hrecorded

end World

end DelegatedAccess
