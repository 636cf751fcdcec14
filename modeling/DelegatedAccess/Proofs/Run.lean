import DelegatedAccess.Proofs.Performance
import DelegatedAccess.Proofs.Rule.Alike
import DelegatedAccess.Proofs.Store.Sound
import DelegatedAccess.Query

/-!
# Runs of an instance

What can be done with an instance: operations and queries, registrations of oracles and
sinks, and opening its store again under another configuration. A run does finitely many
such things one after another. The oracles that are consulted on the way may do them too,
so that the acts of a run may nest.

The main result of this module is that the store of a run changes in steps, each of which is
an operation with well-formed input, and hence stays sound.
-/

namespace DelegatedAccess

variable {η ω : Type}

/-- What can be done with an instance. -/
inductive Act (η : Type) where
  | operation (operation : Operation)
  | query (query : Query)
  /-- Registers an oracle for an entity. -/
  | register (entity : Entity) (handle : η)
  /-- Adds a sink under a name. -/
  | addSink (name : String)
  /-- Opens the store again, as a template or not. Oracles and sinks are gone. -/
  | reopen (config : Config) (template : Bool)

/-- What an act comes to when it does not fail. -/
inductive Reply where
  | receipt (receipt : Receipt)
  | answer (answer : Answer)
  /-- There is nothing to report. -/
  | done

/-- Opens a store, as a template or not. -/
def Instance.reopen (config : Config) (template : Bool) (s : Store) :
    Except AccessError (Instance η) :=
  if template then startTemplate config s else start config s

namespace World

/-- Does something with the instance of the world. A store that cannot be opened stays as it
is. -/
def act (behave : Behaviour η ω) (now : UInt64) : Act η → Attempt η ω Reply
  | .operation op => return .receipt (← perform behave now op)
  | .query q => return .answer (← answer behave now q)
  | .register e handle => do
      modify fun w => { w with current := w.current.register e handle }
      return .done
  | .addSink name => do
      modify fun w => { w with current := w.current.addSink name }
      return .done
  | .reopen config template => do
      let i ← MonadExcept.ofExcept (Instance.reopen config template (← get).current.store)
      modify fun w => { w with current := i }
      return .done

/-- A world leads to another by a run of acts, each at some time and under some behaviour of
the oracles. How an oracle changes the world is a run itself. The host may do as it likes
with its own state. -/
inductive Run : World η ω → World η ω → Prop
  | refl (w : World η ω) : Run w w
  | act {w v : World η ω} (behave : Behaviour η ω) (now : UInt64) (a : Act η) (run : Run w v)
      (nested : ∀ handle q u, Run u ((behave handle q).run u).2) :
      Run w ((World.act behave now a).run.run v).2
  | host {w v : World η ω} (state : ω) (run : Run w v) : Run w { v with host := state }

/-- A world is fresh when its instance is an empty store that was just opened. -/
def IsFresh (w : World η ω) : Prop :=
  ∃ config, Instance.start config .empty = .ok w.current

/-- A world is reachable when a run leads to it from a fresh one. -/
def IsReachable (w : World η ω) : Prop :=
  ∃ w₀ : World η ω, w₀.IsFresh ∧ Run w₀ w

/-- A reachable world stays reachable. -/
theorem IsReachable.run {w v : World η ω} (hw : w.IsReachable) (h : Run w v) :
  v.IsReachable
  := by
  induction h with
  | refl _ => exact hw
  | act behave now a _ nested ih _ =>
      obtain ⟨w₀, hfresh, hrun⟩ := ih hw
      exact ⟨w₀, hfresh, Run.act behave now a hrun nested⟩
  | host state _ ih =>
      obtain ⟨w₀, hfresh, hrun⟩ := ih hw
      exact ⟨w₀, hfresh, Run.host state hrun⟩

/-- Does things with the instance one after another. -/
def play (behave : Behaviour η ω) (now : UInt64) (acts : List (Act η)) (w : World η ω) :
    World η ω :=
  acts.foldl (fun w a => ((act behave now a).run.run w).2) w

/-- Things done one after another make a run. -/
theorem Run.play {behave : Behaviour η ω} (nested : ∀ handle q u, Run u ((behave handle q).run u).2)
    (now : UInt64) (acts : List (Act η)) {w v : World η ω} (h : Run w v) :
  Run w (World.play behave now acts v)
  := by
  induction acts generalizing v with
  | nil => exact h
  | cons a acts ih =>
      apply ih
      apply Run.act behave now a h nested

/-! ### What one act comes to -/

/-- A result that is wrapped leaves the world as the result does. -/
theorem wrap_run {α β : Type} (m : Attempt η ω α) (f : α → β) (w : World η ω) :
  (do return f (← m) : Attempt η ω β).run.run w = ((m.run.run w).1.map f, (m.run.run w).2)
  := return_run m f w

/-- Reading from the store leaves the world. -/
theorem stored_run {α : Type} (read : Store → Except AccessError α) (w : World η ω) :
  (stored read : Attempt η ω α).run.run w = (read w.current.store, w)
  := by
  change (MonadExcept.ofExcept (read w.current.store) : Attempt η ω α).run.run w = _
  cases read w.current.store <;> rfl

/-- What is read from the store is the answer. -/
theorem read_run {α : Type} (read : Store → Except AccessError α) (f : α → Answer)
    (w : World η ω) :
  (do return f (← stored read) : Attempt η ω Answer).run.run w =
    ((read w.current.store).map f, w)
  := by
  rw [wrap_run, stored_run]

/-- A store that is opened again takes the place of the instance. -/
theorem reopen_run (behave : Behaviour η ω) (now : UInt64) (config : Config) (template : Bool)
    (w : World η ω) :
  (act behave now (.reopen config template)).run.run w =
    match Instance.reopen config template w.current.store with
    | .error e => (.error e, w)
    | .ok i => (.ok .done, { w with current := i })
  := by
  rw [act, get_run]
  cases Instance.reopen config template w.current.store <;> rfl

/-! ### How far an act moves the world -/

/-- The oracles move worlds within a relation. -/
def Behaviour.MovesWithin (R : World η ω → World η ω → Prop) (behave : Behaviour η ω) : Prop :=
  ∀ handle q w, R w ((behave handle q).run w).2

/-- What a decision does is to consult the panel of the instance, by the gates of the grants
that count. -/
theorem decide_run (behave : Behaviour η ω) (req : Request) (w : World η ω) :
  (decide behave req).run w =
    (Decision.byGates (panel behave w.current) req w.current.config.maxDepth.toNat
      ((w.current.store.holders req.question.pair req.question.who).map fun h =>
        w.current.store.gate h.2)).run w
  := by
  rw [decide, StateT.run_bind, StateT.run_get, pure_bind]

/-- A request is decided the same in two worlds, when the gates of the grants that count are the
same in both, and so are the depth of evaluation and what the oracles answer. -/
theorem decide_eq_of_gates {η' ω' : Type} {w : World η ω} {v : World η' ω'}
    {behave : Behaviour η ω} {behave' : Behaviour η' ω'} {R : World η ω → World η' ω' → Prop}
    (hpanel : (panel behave w.current).Alike R (panel behave' v.current))
    (hdepth : v.current.config.maxDepth = w.current.config.maxDepth) {req : Request}
    (hgates : ((v.current.store.holders req.question.pair req.question.who).map fun h =>
        v.current.store.gate h.2) =
      (w.current.store.holders req.question.pair req.question.who).map fun h =>
        w.current.store.gate h.2)
    (hrel : R w v) :
  ((decide behave req).run w).1 = ((decide behave' req).run v).1 ∧
    R ((decide behave req).run w).2 ((decide behave' req).run v).2
  := by
  rw [decide_run, decide_run, hgates, hdepth]
  exact hpanel.byGates req _ _ w v hrel

/-- What is found out about a request is the decision on it. -/
theorem check_run (behave : Behaviour η ω) (now : UInt64) (req : Request) (w : World η ω) :
  (answer behave now (.check req)).run.run w =
    (.ok (.decision ((decide behave req).run w).1), ((decide behave req).run w).2)
  := by
  rw [answer, wrap_run]
  rfl

/-- A request is answered with the decision on it. -/
theorem answer_check_run (behave : Behaviour η ω) (now : UInt64) (req : Request)
    (w : World η ω) :
  ((answer behave now (.check req)).run.run w).1 =
    .ok (.decision ((decide behave req).run w).1)
  := by
  rw [check_run]

section

variable {R : World η ω → World η ω → Prop} {behave : Behaviour η ω}

/-- A decision moves the world no further than the oracles do. -/
theorem decide_moves (h : behave.MovesWithin R) (hrefl : ∀ w, R w w)
    (htrans : ∀ u v w, R u v → R v w → R u w) (req : Request) (w : World η ω) :
  R w ((decide behave req).run w).2
  := by
  have hpanel : (panel behave w.current).MovesWithin R := by
    intro e o he q v
    obtain ⟨handle, _, rfl⟩ := Option.map_eq_some_iff.mp he
    apply h
  rw [decide_run]
  apply hpanel.byGates hrefl htrans

/-- The decision on the request of a creation moves the world no further than the oracles
do. -/
theorem consult_moves (h : behave.MovesWithin R) (hrefl : ∀ w, R w w)
    (htrans : ∀ u v w, R u v → R v w → R u w) (now : UInt64) (kind : Operation.Kind)
    (w : World η ω) :
  R w ((consult behave now kind).run w).2
  := by
  cases kind with
  | create c =>
      rw [consult_create]
      apply decide_moves h hrefl htrans
  | bootstrap root => apply hrefl
  | freeze => apply hrefl
  | manage caller p task => apply hrefl

/-- A query moves the world no further than the oracles do. -/
theorem answer_moves (h : behave.MovesWithin R) (hrefl : ∀ w, R w w)
    (htrans : ∀ u v w, R u v → R v w → R u w) (now : UInt64) (q : Query) (w : World η ω) :
  R w ((answer behave now q).run.run w).2
  := by
  have hstored : ∀ {α : Type} (read : Store → Except AccessError α) (f : α → Answer),
      R w ((do return f (← stored read) : Attempt η ω Answer).run.run w).2 := by
    intro α read f
    rw [read_run]
    apply hrefl
  have hdecide : ∀ (req : Request) (f : Decision → Answer),
      R w ((do return f (← (decide behave req : StateM (World η ω) Decision)) :
        Attempt η ω Answer).run.run w).2 := by
    intro req f
    rw [wrap_run]
    apply decide_moves h hrefl htrans
  cases q with
  | status => apply hrefl
  | config => apply hrefl
  | has e p args => apply hdecide _ fun d => .truth (d = .granted)
  | check req => apply hdecide req .decision
  | manager p => apply hstored (·.manager? p) .manager
  | grant e p => apply hstored (fun s => .ok (s.grant? p e)) .grant
  | ruleCount e p => apply hstored (·.rulesOf p e) fun rules => .count rules.length
  | rule e p index => apply hstored (·.rulesOf p e) fun rules => .rule rules[index]?
  | grantees p => apply hstored (fun s => .ok (s.grantees p)) .grantees

end

end World

/-! ### The store of a run -/

/-- A store that is put to use is taken as it is. -/
theorem Instance.store_start {config : Config} {s : Store} {i : Instance η}
    (h : Instance.start config s = .ok i) :
  i.store = s
  := by
  rw [start] at h
  split at h
  · contradiction
  · rw [← Except.ok.inj h]

/-- A store is opened under a configuration that can be used. As a template it is opened with
the draft that makes it one. -/
theorem Instance.reopen_eq (config : Config) (template : Bool) (s : Store) :
  (Instance.reopen config template s : Except AccessError (Instance η)) =
    match config.validate with
    | .error e => .error (.config e)
    | .ok () =>
        if template then
          match Transaction.freeze s with
          | .error e => .error e
          | .ok d => .ok ((⟨d.store, config, [], []⟩ : Instance η).publish d.receipt.events)
        else .ok ⟨s, config, [], []⟩
  := by
  rw [reopen, startTemplate, start]
  cases config.validate with
  | error e => cases template <;> rfl
  | ok _ =>
      cases template with
      | true =>
          change (commit ⟨s, config, [], []⟩ Transaction.freeze).bind _ = _
          rw [commit]
          cases Transaction.freeze s <;> rfl
      | false => rfl

/-- A store that is opened is taken as it is, or becomes a template. -/
theorem Instance.store_reopen {config : Config} {template : Bool} {s : Store} {i : Instance η}
    (h : Instance.reopen config template s = .ok i) :
  i.store = s ∨ ∃ d, Drafted config.resource s .freeze d ∧ i.store = d.store
  := by
  rw [reopen_eq] at h
  split at h
  · contradiction
  · split at h
    · split at h
      · contradiction
      next d hd =>
        obtain rfl := Except.ok.inj h
        exact Or.inr ⟨d, drafted_of_freeze hd, rfl⟩
    · obtain rfl := Except.ok.inj h
      exact Or.inl rfl

namespace World

/-- The store changes in steps. -/
abbrev StepsTo (w v : World η ω) : Prop :=
  w.current.store.Steps v.current.store

/-- An act changes the store in steps when the oracles do. -/
theorem act_steps {behave : Behaviour η ω} (h : behave.MovesWithin StepsTo) (now : UInt64)
    (a : Act η) (w : World η ω) :
  w.StepsTo ((act behave now a).run.run w).2
  := by
  have hrefl : ∀ w : World η ω, w.StepsTo w := fun w => Relation.ReflTransGen.refl
  have htrans : ∀ u v w : World η ω, u.StepsTo v → v.StepsTo w → u.StepsTo w :=
    fun u v w => Relation.ReflTransGen.trans
  cases a with
  | operation op =>
      rw [act, wrap_run]
      have hperform := performed_perform behave now op w
      have hconsult := consult_moves h hrefl htrans now op.kind w
      generalize (perform behave now op).run.run w = result at hperform ⊢
      obtain ⟨result, v⟩ := result
      cases hperform with
      | refused e => apply hrefl
      | declined e hv =>
          rw [hv] at hconsult
          exact hconsult
      | done hscreen hv hdrafted =>
          rw [hv] at hconsult
          apply hconsult.tail (hdrafted.step (Operation.isWellFormed_kind hscreen))
  | query q =>
      rw [act, wrap_run]
      apply answer_moves h hrefl htrans
  | register e handle => apply hrefl
  | addSink name => apply hrefl
  | reopen config template =>
      rw [reopen_run]
      split
      · apply hrefl
      next i hi =>
        rcases Instance.store_reopen hi with hsame | ⟨d, hd, hi⟩
        · rw [StepsTo, hsame]
        · rw [StepsTo, hi]
          apply Relation.ReflTransGen.single (hd.step trivial)

/-- The store of a run changes in steps. -/
theorem Run.steps {w v : World η ω} (h : Run w v) :
  w.StepsTo v
  := by
  induction h with
  | refl _ => apply Relation.ReflTransGen.refl
  | act behave now a _ _ ih ihnested => apply ih.trans (act_steps ihnested now a _)
  | host state _ ih => exact ih

/-- A decision changes the store in steps when what the oracles do is a run. -/
theorem decide_steps {behave : Behaviour η ω}
    (nested : ∀ handle q u, Run u ((behave handle q).run u).2) (req : Request) (w : World η ω) :
  w.StepsTo ((decide behave req).run w).2
  := by
  apply decide_moves (R := StepsTo)
  · exact fun handle q u => (nested handle q u).steps
  · exact fun w => Relation.ReflTransGen.refl
  · exact fun u v w => Relation.ReflTransGen.trans

/-- The store of a reachable world is sound. -/
theorem IsReachable.sound {w : World η ω} (h : w.IsReachable) :
  w.current.store.Sound
  := by
  obtain ⟨w₀, ⟨config, hconfig⟩, hrun⟩ := h
  apply hrun.steps.sound
  rw [Instance.store_start hconfig]
  apply Store.Sound.empty

/-! ### Worlds to give examples with -/

/-- A pair. -/
def examplePair : Pair :=
  ⟨.createPermissions, ⟨9⟩⟩

/-- A pair on another resource. -/
def otherPair : Pair :=
  ⟨.createPermissions, ⟨10⟩⟩

/-- A world with an empty store that was just opened, under the usual settings. -/
def blank : World η Unit :=
  ⟨⟨.empty, {}, [], []⟩, ()⟩

/-- Oracles that say yes to everything, and do nothing else. -/
def agreeable : Behaviour η ω :=
  fun _ _ => pure true

/-- The world is fresh. -/
theorem isFresh_blank :
  (blank : World η Unit).IsFresh
  := ⟨{}, rfl⟩

/-- What oracles that say yes do is a run. -/
theorem run_agreeable (handle : η) (q : Question) (u : World η ω) :
  Run u ((agreeable handle q).run u).2
  := Run.refl u

/-- Whatever is done to begin with, it leads to a reachable world. -/
theorem isReachable_play {behave : Behaviour η Unit}
    (nested : ∀ handle q u, Run u ((behave handle q).run u).2) (now : UInt64)
    (acts : List (Act η)) :
  (play behave now acts blank).IsReachable
  := ⟨blank, isFresh_blank, Run.play nested now acts (Run.refl blank)⟩

end World

end DelegatedAccess
