import DelegatedAccess.Proofs.Host

/-!
# What was done in a run

A deed is something that was done with an instance and did not fail, together with the reply to it,
or the taking of what a sink has received. A host can keep a log of deeds: what oracles do while
they are consulted is logged before the deed that consults them, and stays in the log when nothing
comes of that deed.

The main results of this module are that an act comes to one of seven things, and that every run
can be logged.
-/

namespace DelegatedAccess

variable {η ω : Type}

namespace World

/-! ### What an act comes to -/

/-- What an act came to, from a world to another, with oracles that move worlds within a relation.
An act that fails leaves what the oracles have left, and so does a query. -/
inductive Acted (R : World η ω → World η ω → Prop) (w : World η ω) :
    Act η → Except AccessError Reply → World η ω → Prop
  | failed {a : Act η} {v : World η ω} (e : AccessError) (hv : R w v) : Acted R w a (.error e) v
  | performed {op : Operation} {v : World η ω} {d : Draft}
      (hscreen : op.kind.screen w.current.config = .ok ()) (hv : R w v)
      (hdrafted : Drafted w.current.config.resource v.current.store op.kind d) :
      Acted R w (.operation op) (.ok (.receipt d.receipt)) (v.settle d)
  | answered {q : Query} {v : World η ω} (a : Answer) (hv : R w v) :
      Acted R w (.query q) (.ok (.answer a)) v
  | registered (e : Entity) (handle : η) :
      Acted R w (.register e handle) (.ok .done)
        { w with current := w.current.register e handle }
  | sinkAdded (name : String) :
      Acted R w (.addSink name) (.ok .done) { w with current := w.current.addSink name }
  | opened (config : Config) :
      Acted R w (.reopen config false) (.ok .done)
        { w with current := ⟨w.current.store, config, [], []⟩ }
  | frozen {config : Config} {d : Draft}
      (hdrafted : Drafted config.resource w.current.store .freeze d) :
      Acted R w (.reopen config true) (.ok .done)
        { w with current := ⟨d.store, config, [], []⟩ }

section

variable {R : World η ω → World η ω → Prop} {behave : Behaviour η ω}

/-- An operation that is performed comes to one of the things an act comes to. -/
theorem acted_operation (h : behave.MovesWithin R) (hrefl : ∀ w, R w w)
    (htrans : ∀ u v w, R u v → R v w → R u w) (now : UInt64) (op : Operation) (w : World η ω) :
  Acted R w (.operation op) ((act behave now (.operation op)).run.run w).1
    ((act behave now (.operation op)).run.run w).2
  := by
  rw [act, wrap_run]
  have hperform := performed_perform behave now op w
  have hconsult := consult_moves h hrefl htrans now op.kind w
  generalize (perform behave now op).run.run w = result at hperform ⊢
  obtain ⟨result, v⟩ := result
  cases hperform with
  | refused e => exact Acted.failed e (hrefl _)
  | declined e hv =>
      rw [hv] at hconsult
      exact Acted.failed e hconsult
  | done hscreen hv hdrafted =>
      rw [hv] at hconsult
      exact Acted.performed hscreen hconsult hdrafted

/-- A store that is opened again is opened as it is or as a template, or not at all. -/
theorem acted_reopen (hrefl : ∀ w, R w w) (now : UInt64) (config : Config) (template : Bool)
    (w : World η ω) :
  Acted R w (.reopen config template) ((act behave now (.reopen config template)).run.run w).1
    ((act behave now (.reopen config template)).run.run w).2
  := by
  rw [reopen_run, Instance.reopen_eq]
  cases config.validate with
  | error e => exact Acted.failed _ (hrefl w)
  | ok _ =>
      cases template with
      | false => exact Acted.opened config
      | true =>
          dsimp only
          rw [if_pos rfl]
          cases hfreeze : Transaction.freeze w.current.store with
          | error e => exact Acted.failed e (hrefl w)
          | ok d => exact Acted.frozen (drafted_of_freeze hfreeze)

/-- An act comes to one of seven things. -/
theorem acted_act (h : behave.MovesWithin R) (hrefl : ∀ w, R w w)
    (htrans : ∀ u v w, R u v → R v w → R u w) (now : UInt64) (a : Act η) (w : World η ω) :
  Acted R w a ((act behave now a).run.run w).1 ((act behave now a).run.run w).2
  := by
  cases a with
  | operation op => apply acted_operation h hrefl htrans
  | query q =>
      rw [act, wrap_run]
      have hanswer := answer_moves h hrefl htrans now q w
      cases ((answer behave now q).run.run w).1 with
      | error e => exact Acted.failed e hanswer
      | ok a => exact Acted.answered a hanswer
  | register e handle => exact Acted.registered e handle
  | addSink name => exact Acted.sinkAdded name
  | reopen config template => apply acted_reopen hrefl

end

/-! ### Courses -/

/-- Takes out what the sink at a place has received. -/
def takeSink (place : Nat) (w : World η ω) : World η ω :=
  { w with current := { w.current with
      sinks := w.current.sinks.modify place fun k => { k with events := [] } } }

/-- A course is a run in which the host may also take out what sinks have received. -/
inductive Course : World η ω → World η ω → Prop
  | refl (w : World η ω) : Course w w
  | act {w v : World η ω} (behave : Behaviour η ω) (now : UInt64) (a : Act η) (course : Course w v)
      (nested : ∀ handle q u, Course u ((behave handle q).run u).2) :
      Course w ((World.act behave now a).run.run v).2
  | take {w v : World η ω} (place : Nat) (course : Course w v) : Course w (v.takeSink place)
  | host {w v : World η ω} (state : ω) (course : Course w v) : Course w { v with host := state }

end World

/-! ### Logs of deeds -/

/-- Something that was done. -/
inductive Deed (η : Type) where
  /-- An act that did not fail, with its reply. -/
  | done (a : Act η) (reply : Reply)
  /-- What the sink at a place had received was taken out. -/
  | taken (place : Nat)

/-- The deed that an act makes when it comes to a result. -/
def Act.deeds (a : Act η) : Except AccessError Reply → List (Deed η)
  | .ok reply => [.done a reply]
  | .error _ => []

namespace World

/-- More deeds are noted. -/
def log (w : World η (ω × List (Deed η))) (deeds : List (Deed η)) : World η (ω × List (Deed η)) :=
  w.forget.keeping (w.notes ++ deeds)

/-- Does something with the instance, and logs it if it does not fail. -/
def actLogged (behave : Behaviour η (ω × List (Deed η))) (now : UInt64) (a : Act η)
    (w : World η (ω × List (Deed η))) : World η (ω × List (Deed η)) :=
  let (result, v) := (act behave now a).run.run w
  v.log (a.deeds result)

/-- A course in which the host logs every deed, be it one of the course or of what an oracle does.
Otherwise the host leaves the log alone. -/
inductive Logged : World η (ω × List (Deed η)) → World η (ω × List (Deed η)) → Prop
  | refl (w : World η (ω × List (Deed η))) : Logged w w
  | act {w v : World η (ω × List (Deed η))} (behave : Behaviour η (ω × List (Deed η)))
      (now : UInt64) (a : Act η) (course : Logged w v)
      (nested : ∀ handle q u, Logged u ((behave handle q).run u).2) :
      Logged w (actLogged behave now a v)
  | take {w v : World η (ω × List (Deed η))} (place : Nat) (course : Logged w v) :
      Logged w ((v.takeSink place).log [.taken place])
  | host {w v : World η (ω × List (Deed η))} (state : ω) (course : Logged w v) :
      Logged w { v with host := (state, v.notes) }

/-- Whatever was logged before, a course can be logged. -/
theorem Course.logged {w v : World η ω} (h : Course w v) (deeds : List (Deed η)) :
  ∃ deeds', Logged (w.keeping deeds) (v.keeping deeds')
  := by
  induction h generalizing deeds with
  | refl w => exact ⟨deeds, Logged.refl _⟩
  | @act w v behave now a course nested ih ihnested =>
      obtain ⟨deeds₁, hcourse⟩ := ih deeds
      choose next hnext using ihnested
      -- the oracles do what they did, and the deeds among that are logged
      let behave' : Behaviour η (ω × List (Deed η)) := fun handle q u =>
        (((behave handle q).run u.forget).1,
          ((behave handle q).run u.forget).2.keeping (next handle q u.forget u.notes))
      have halike : Behaviour.Alike (fun u u' => u.forget = u') behave' behave := by
        rintro handle q u _ rfl
        exact ⟨rfl, rfl⟩
      have hact := alike_act halike sameInstance_forget now a (v.keeping deeds₁) v rfl
      have hlogged : actLogged behave' now a (v.keeping deeds₁) =
          ((World.act behave now a).run.run v).2.keeping
            (actLogged behave' now a (v.keeping deeds₁)).notes := by
        rw [← hact.2]
        rfl
      refine ⟨_, hlogged ▸ Logged.act behave' now a hcourse ?_⟩
      intro handle q u
      apply hnext handle q u.forget u.notes
  | take place course ih =>
      obtain ⟨deeds', hcourse⟩ := ih deeds
      exact ⟨_, Logged.take place hcourse⟩
  | host state course ih =>
      obtain ⟨deeds', hcourse⟩ := ih deeds
      exact ⟨deeds', Logged.host state hcourse⟩

/-- Without more deeds the log stays. -/
@[simp] theorem log_nil (w : World η (ω × List (Deed η))) :
  w.log [] = w
  := by
  rw [log, List.append_nil, keeping_forget]

/-- What is true of a world stays true in every logged course, when it does so with every act whose
oracles keep it true, with the taking of what a sink has received, and with what the host does. -/
theorem Logged.keeps {I : World η (ω × List (Deed η)) → Prop}
    (hact : ∀ w v a result, I w → Acted (fun u u' => I u → I u') w a result v →
      I (v.log (a.deeds result)))
    (htake : ∀ w place, I w → I ((w.takeSink place).log [.taken place]))
    (hhost : ∀ w state, I w → I { w with host := (state, w.notes) })
    {w v : World η (ω × List (Deed η))} (h : Logged w v) (hw : I w) :
  I v
  := by
  induction h with
  | refl _ => exact hw
  | @act w v behave now a _ _ ih ihnested =>
      have hacted := acted_act (R := fun u u' => I u → I u') ihnested (fun _ => id)
        (fun _ _ _ huv hvw => hvw ∘ huv) now a v
      exact hact _ _ _ _ (ih hw) hacted
  | take place _ ih => apply htake _ _ (ih hw)
  | host state _ ih => apply hhost _ _ (ih hw)

/-- Does things with the instance one after another, and logs what does not fail. -/
def actAllLogged (behave : Behaviour η (ω × List (Deed η))) (now : UInt64) (acts : List (Act η))
    (w : World η (ω × List (Deed η))) : World η (ω × List (Deed η)) :=
  acts.foldl (fun w a => actLogged behave now a w) w

/-- Things done one after another are logged when what oracles do is. -/
theorem Logged.all {behave : Behaviour η (ω × List (Deed η))}
    (nested : ∀ handle q u, Logged u ((behave handle q).run u).2) (now : UInt64)
    (acts : List (Act η)) {w v : World η (ω × List (Deed η))} (h : Logged w v) :
  Logged w (actAllLogged behave now acts v)
  := by
  induction acts generalizing v with
  | nil => exact h
  | cons a acts ih =>
      apply ih
      apply Logged.act behave now a h nested

/-- What oracles that say yes do is logged. -/
theorem logged_agreeable (handle : η) (q : Question) (u : World η (ω × List (Deed η))) :
  Logged u ((agreeable handle q).run u).2
  := Logged.refl u

end World

end DelegatedAccess
