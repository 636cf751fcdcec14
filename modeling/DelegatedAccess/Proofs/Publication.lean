import DelegatedAccess.Proofs.Consultation
import DelegatedAccess.Proofs.Deed

/-!
# What sinks receive

An operation that fails does nothing at all, beyond what oracles did while they were consulted, and
one that succeeds gives the events of its receipt to every sink, once and in order.

The main result of this module is that a sink therefore holds exactly the events of everything that
was done since it was added, or since what it had received was last taken out. What oracles do
while they are consulted comes before the operation that consults them, and stays when that fails.
-/

namespace DelegatedAccess

variable {η ω : Type}

/-- Receives more events. -/
def Sink.receive (events : List Event) (k : Sink) : Sink :=
  { k with events := k.events ++ events }

/-! ### Deeds and sinks -/

namespace Deed

/-- The events that a deed gives to every sink. -/
def events : Deed η → List Event
  | .done _ (.receipt receipt) => receipt.events
  | _ => []

/-- Whether a deed opens a store. An instance that was just opened has no sinks. -/
def opens : Deed η → Bool
  | .done (.reopen ..) _ => true
  | _ => false

/-- The number of sinks after a deed, when there was some number of them before. -/
def sinks (n : Nat) : Deed η → Nat
  | .done (.reopen ..) _ => 0
  | .done (.addSink _) _ => n + 1
  | _ => n

/-- The number of sinks after deeds, when there were none before. -/
def sinkCount (deeds : List (Deed η)) : Nat :=
  deeds.foldl sinks 0

/-- The number of sinks after one more deed. -/
theorem sinkCount_concat (deeds : List (Deed η)) (d : Deed η) :
  sinkCount (deeds ++ [d]) = d.sinks (sinkCount deeds)
  := by
  rw [sinkCount, List.foldl_append, List.foldl_cons, List.foldl_nil, sinkCount]

/-- After some deeds, a deed leaves the sink at a place with nothing: it takes out what the sink has
received, or adds the sink. -/
inductive Empties (earlier : List (Deed η)) : Deed η → Nat → Prop
  | taken (place : Nat) : Empties earlier (.taken place) place
  | added (name : String) : Empties earlier (.done (.addSink name) .done) (sinkCount earlier)

/-- The events of all that was done since the sink at a place was last left with nothing. -/
def SinceEmpty (deeds : List (Deed η)) (place : Nat) (events : List Event) : Prop :=
  ∃ earlier d later, deeds = earlier ++ d :: later ∧ d.Empties earlier place ∧
    (∀ e ∈ later, e ≠ .taken place ∧ e.opens = false) ∧ events = later.flatMap Deed.events

/-- A deed that has just left the sink with nothing. -/
theorem Empties.sinceEmpty {deeds : List (Deed η)} {d : Deed η} {place : Nat}
    (h : d.Empties deeds place) :
  SinceEmpty (deeds ++ [d]) place []
  := by
  refine ⟨deeds, d, [], rfl, h, ?_, rfl⟩
  intro e he
  contradiction

/-- One more deed, which takes nothing from the sink, adds its events. -/
theorem SinceEmpty.concat {deeds : List (Deed η)} {place : Nat} {events : List Event}
    (h : SinceEmpty deeds place events) {d : Deed η} (htaken : d ≠ .taken place)
    (hopens : d.opens = false) :
  SinceEmpty (deeds ++ [d]) place (events ++ d.events)
  := by
  obtain ⟨earlier, d', later, rfl, hempties, hlater, rfl⟩ := h
  refine ⟨earlier, d', later ++ [d], ?_, hempties, ?_, ?_⟩
  · rw [List.append_assoc, List.cons_append]
  · intro e he
    rcases List.mem_append.mp he with he | he
    · apply hlater e he
    · obtain rfl := List.mem_singleton.mp he
      exact ⟨htaken, hopens⟩
  · rw [List.flatMap_append, List.flatMap_singleton]

/-- One more deed without events adds none. -/
theorem SinceEmpty.concat_silent {deeds : List (Deed η)} {place : Nat} {events : List Event}
    (h : SinceEmpty deeds place events) {d : Deed η} (htaken : d ≠ .taken place)
    (hopens : d.opens = false) (hevents : d.events = []) :
  SinceEmpty (deeds ++ [d]) place events
  := by
  have hconcat := h.concat htaken hopens
  rwa [hevents, List.append_nil] at hconcat

end Deed

/-- What sinks hold is told by deeds: each has received the events of all that was done since it was
added or last taken from, in order. -/
structure Heard (sinks : List Sink) (deeds : List (Deed η)) : Prop where
  count : sinks.length = Deed.sinkCount deeds
  received : ∀ (place : Nat) (k : Sink), sinks[place]? = some k →
    Deed.SinceEmpty deeds place k.events

namespace Heard

variable {sinks : List Sink} {deeds : List (Deed η)}

/-- Where there are no sinks, none has received anything. -/
theorem nil (h : Deed.sinkCount deeds = 0) :
  Heard [] deeds
  where
  count := h.symm
  received place k hk := by
    rw [List.getElem?_nil] at hk
    contradiction

/-- Every sink receives the events of one more deed, if it neither changes the sinks nor takes
anything from one. -/
theorem hear (h : Heard sinks deeds) {d : Deed η} (hcount : ∀ n, d.sinks n = n)
    (htaken : ∀ place, d ≠ .taken place) (hopens : d.opens = false) :
  Heard (sinks.map (Sink.receive d.events)) (deeds ++ [d])
  where
  count := by rw [List.length_map, h.count, Deed.sinkCount_concat, hcount]
  received place k hk := by
    rw [List.getElem?_map] at hk
    obtain ⟨k', hk', rfl⟩ := Option.map_eq_some_iff.mp hk
    apply (h.received place k' hk').concat (htaken place) hopens

/-- A deed without events leaves the sinks. -/
theorem silent (h : Heard sinks deeds) {d : Deed η} (hcount : ∀ n, d.sinks n = n)
    (htaken : ∀ place, d ≠ .taken place) (hopens : d.opens = false) (hevents : d.events = []) :
  Heard sinks (deeds ++ [d])
  where
  count := by rw [h.count, Deed.sinkCount_concat, hcount]
  received place k hk := (h.received place k hk).concat_silent (htaken place) hopens hevents

/-- A sink that is added has received nothing. -/
theorem add (h : Heard sinks deeds) (name : String) :
  Heard (sinks ++ [⟨name, []⟩]) (deeds ++ [.done (.addSink name) .done])
  where
  count := by
    rw [List.length_append, h.count, Deed.sinkCount_concat]
    rfl
  received place k hk := by
    by_cases hplace : place < sinks.length
    · rw [List.getElem?_append_left hplace] at hk
      apply (h.received place k hk).concat_silent _ rfl rfl
      exact fun heq => nomatch heq
    · obtain ⟨hbound, _⟩ := List.getElem?_eq_some_iff.mp hk
      rw [List.length_append, List.length_singleton] at hbound
      obtain rfl : place = sinks.length := by omega
      rw [List.getElem?_concat_length] at hk
      obtain rfl := Option.some.inj hk
      rw [h.count]
      apply (Deed.Empties.added name).sinceEmpty

/-- A sink that something is taken from holds nothing, and the others stay. -/
theorem take (h : Heard sinks deeds) (place : Nat) :
  Heard (sinks.modify place fun k => { k with events := [] }) (deeds ++ [.taken place])
  where
  count := by
    rw [List.length_modify, h.count, Deed.sinkCount_concat]
    rfl
  received place' k hk := by
    rw [List.getElem?_modify] at hk
    obtain ⟨k', hk', rfl⟩ := Option.map_eq_some_iff.mp hk
    by_cases hplace : place = place'
    · subst hplace
      rw [if_pos rfl]
      apply (Deed.Empties.taken place).sinceEmpty
    · rw [if_neg hplace]
      apply (h.received place' k' hk').concat_silent _ rfl rfl
      exact fun heq => hplace (Deed.taken.inj heq)

end Heard

namespace World

/-! ### One operation -/

/-- What an operation does, from a world: nothing but what oracles do when they are asked, if it
fails, and if it succeeds, it changes the store that they have left, and every sink receives the
events of its receipt. -/
structure IsAtomic (behave : Behaviour η ω) (now : UInt64) (op : Operation) (w : World η ω) :
    Prop where
  asked : Asked behave w (consulted behave now op.kind w)
  inert : behave.IsInert → (consulted behave now op.kind w).current = w.current
  failed : ∀ e, ((perform behave now op).run.run w).1 = .error e →
    ((perform behave now op).run.run w).2 = consulted behave now op.kind w
  published : ∀ receipt, ((perform behave now op).run.run w).1 = .ok receipt →
    ((perform behave now op).run.run w).2 =
      { consulted behave now op.kind w with
        current := { (consulted behave now op.kind w).current with
          store := ((perform behave now op).run.run w).2.current.store
          sinks := (consulted behave now op.kind w).current.sinks.map
            (Sink.receive receipt.events) } }

/-- Every operation is atomic, whatever the store, the sinks and the oracles. -/
theorem isAtomic (behave : Behaviour η ω) (now : UInt64) (op : Operation) (w : World η ω) :
  IsAtomic behave now op w
  where
  asked := asked_consulted behave now op.kind w
  inert h := h.current_consulted now op.kind w
  failed e he := by
    have hconcluded := concluded_perform behave now op w
    rw [he] at hconcluded
    generalize ((perform behave now op).run.run w).2 = u at hconcluded ⊢
    cases hconcluded with
    | failed _ => rfl
  published receipt hreceipt := by
    have hconcluded := concluded_perform behave now op w
    rw [hreceipt] at hconcluded
    generalize ((perform behave now op).run.run w).2 = u at hconcluded ⊢
    cases hconcluded with
    | done hscreen hdrafted => rfl

/-- A store that cannot be opened again leaves the instance as it is. -/
theorem reopen_failed {behave : Behaviour η ω} {now : UInt64} {config : Config} {template : Bool}
    {w : World η ω} {e : AccessError}
    (h : ((act behave now (.reopen config template)).run.run w).1 = .error e) :
  ((act behave now (.reopen config template)).run.run w).2 = w
  := by
  rw [reopen_run] at h ⊢
  cases hreopen : Instance.reopen config template w.current.store with
  | error e => rfl
  | ok i =>
      rw [hreopen] at h
      contradiction

/-! ### Courses -/

/-- The log of a world tells what its sinks hold. -/
abbrev IsHeard (w : World η (ω × List (Deed η))) : Prop :=
  Heard w.current.sinks w.notes

/-- An act whose oracles keep the log right keeps it right. -/
theorem IsHeard.acted {w v : World η (ω × List (Deed η))} {a : Act η}
    {result : Except AccessError Reply} (hw : w.IsHeard)
    (h : Acted (fun u u' => u.IsHeard → u'.IsHeard) w a result v) :
  (v.log (a.deeds result)).IsHeard
  := by
  cases h with
  | failed e hv =>
      rw [Act.deeds, log_nil]
      exact hv hw
  | @performed op _ d hscreen hv hdrafted =>
      exact (hv hw).hear (d := .done (.operation op) (.receipt d.receipt)) (fun _ => rfl)
        (fun _ h => nomatch h) rfl
  | answered a hv => exact (hv hw).silent (fun _ => rfl) (fun _ h => nomatch h) rfl rfl
  | registered e handle => exact hw.silent (fun _ => rfl) (fun _ h => nomatch h) rfl rfl
  | sinkAdded name => exact hw.add name
  | opened config => exact Heard.nil (Deed.sinkCount_concat _ _)
  | frozen hdrafted => exact Heard.nil (Deed.sinkCount_concat _ _)

/-- The log of a course stays right. -/
theorem Logged.isHeard {w v : World η (ω × List (Deed η))} (h : Logged w v) (hw : w.IsHeard) :
  v.IsHeard
  := by
  apply h.keeps _ _ _ hw
  · intro w v a result hw hacted
    exact hw.acted hacted
  · intro w place hw
    exact Heard.take hw place
  · exact fun w state hw => hw

/-- Nothing is removed from a log. -/
theorem Logged.notes_prefix {w v : World η (ω × List (Deed η))} (h : Logged w v) :
  w.notes <+: v.notes
  := by
  apply h.keeps (I := fun u => w.notes <+: u.notes) _ _ _ (List.prefix_refl _)
  · intro u u' a result hu hacted
    have hu' : w.notes <+: u'.notes := by
      cases hacted with
      | failed e hmoved => exact hmoved hu
      | performed hscreen hmoved hdrafted => exact hmoved hu
      | answered a hmoved => exact hmoved hu
      | registered e handle => exact hu
      | sinkAdded name => exact hu
      | opened config => exact hu
      | frozen hdrafted => exact hu
    exact hu'.trans (List.prefix_append _ _)
  · intro u place hu
    exact hu.trans (List.prefix_append _ _)
  · exact fun u state hu => hu

/-- One course after another is a course. -/
theorem Logged.trans {w v u : World η (ω × List (Deed η))} (h : Logged w v) (h' : Logged v u) :
  Logged w u
  := by
  induction h' with
  | refl _ => exact h
  | act behave now a _ nested ih _ => exact Logged.act behave now a (ih h) nested
  | take place _ ih => exact Logged.take place (ih h)
  | host state _ ih => exact Logged.host state (ih h)

/-- What oracles do before an operation does something itself is logged before the operation is, and
stays in the log when it fails. -/
theorem logged_operation {behave : Behaviour η (ω × List (Deed η))}
    (nested : ∀ handle q u, Logged u ((behave handle q).run u).2) (now : UInt64) (op : Operation)
    (w : World η (ω × List (Deed η))) :
  Logged w (consulted behave now op.kind w) ∧
    ∃ deeds, (consulted behave now op.kind w).notes = w.notes ++ deeds ∧
      (actLogged behave now (.operation op) w).notes =
        w.notes ++ deeds ++ (Act.operation op).deeds
          ((act behave now (.operation op)).run.run w).1
  := by
  have hlogged : Logged w (consulted behave now op.kind w) :=
    consulted_moves nested Logged.refl (fun _ _ _ => Logged.trans) now op.kind w
  obtain ⟨deeds, hdeeds⟩ := hlogged.notes_prefix
  refine ⟨hlogged, deeds, hdeeds.symm, ?_⟩
  have hconcluded := concluded_perform behave now op w
  have hsame : ((perform behave now op).run.run w).2.notes =
      (consulted behave now op.kind w).notes := by
    generalize (perform behave now op).run.run w = result at hconcluded ⊢
    obtain ⟨result, v⟩ := result
    cases hconcluded with
    | failed e => rfl
    | done hscreen hdrafted => rfl
  have hact : ((act behave now (.operation op)).run.run w).2 =
      ((perform behave now op).run.run w).2 := by
    rw [act, wrap_run]
  rw [hdeeds, ← hsame, ← hact]
  rfl

/-- An operation that fails does nothing beyond what oracles do, and one that succeeds gives the
events of its receipt to every sink, once and in order. Opening a store again does nothing when it
fails. So after every course from an instance that was just opened, the sinks hold the events of all
that was done since they were added or last taken from. What oracles do for an operation is done
before the operation, and is done also when the operation fails. -/
theorem published_once :
  (∀ (behave : Behaviour η ω) (now : UInt64) (w : World η ω),
      (∀ op, IsAtomic behave now op w) ∧
        ∀ config template e, ((act behave now (.reopen config template)).run.run w).1 = .error e →
          ((act behave now (.reopen config template)).run.run w).2 = w) ∧
    (∀ w₀ : World η ω, w₀.current.sinks = [] →
      (∀ w, Course w₀ w → ∃ deeds, Logged (w₀.keeping []) (w.keeping deeds)) ∧
        ∀ (w : World η ω) (deeds : List (Deed η)), Logged (w₀.keeping []) (w.keeping deeds) →
          Heard w.current.sinks deeds) ∧
    ∀ (behave : Behaviour η (ω × List (Deed η))),
      (∀ handle q u, Logged u ((behave handle q).run u).2) →
      ∀ (now : UInt64) (op : Operation) (w : World η (ω × List (Deed η))),
        Logged w (consulted behave now op.kind w) ∧
          ∃ deeds, (consulted behave now op.kind w).notes = w.notes ++ deeds ∧
            (actLogged behave now (.operation op) w).notes =
              w.notes ++ deeds ++ (Act.operation op).deeds
                ((act behave now (.operation op)).run.run w).1
  := by
  refine ⟨?_, ?_, ?_⟩
  · intro behave now w
    exact ⟨fun op => isAtomic behave now op w, fun _ _ _ => reopen_failed⟩
  · intro w₀ hnone
    constructor
    · intro w hcourse
      apply hcourse.logged
    · intro w deeds hlogged
      have hstart : (w₀.keeping ([] : List (Deed η))).IsHeard := by
        change Heard w₀.current.sinks []
        rw [hnone]
        apply Heard.nil rfl
      exact hlogged.isHeard hstart
  · intro behave nested now op w
    apply logged_operation nested

/-! ### An example -/

/-- Oracles that say yes, having revoked the creation capability that they were asked for. -/
def withdrawingOracles : Behaviour Unit (Unit × List (Deed Unit)) :=
  fun _ _ w => (true, actLogged agreeable 0
    (.operation (.revoke ⟨5⟩ ⟨6⟩ (Transaction.creationPair ⟨1⟩))) w)

/-- A creation by a caller whose creation capability is granted under an oracle. -/
def withdrawnCreation : Operation :=
  .create ⟨6⟩ ⟨7⟩ examplePair ⟨6⟩ []

/-- A world with a log and two sinks, the second of which was added after the first had received
something that was then taken out. -/
def listeningWorld : World Unit (Unit × List (Deed Unit)) :=
  let w := actAllLogged withdrawingOracles 0
    [.addSink "first", .operation (.bootstrap ⟨5⟩), .register ⟨3⟩ (),
      .operation (.grant ⟨5⟩ ⟨6⟩ (Transaction.creationPair ⟨1⟩) [.oracle ⟨3⟩])]
    ((blank : World Unit Unit).keeping [])
  actAllLogged withdrawingOracles 0 [.addSink "second"] ((w.takeSink 0).log [.taken 0])

/-- What the creation leaves. -/
def withdrawnWorld : World Unit (Unit × List (Deed Unit)) :=
  actLogged withdrawingOracles 0 (.operation withdrawnCreation) listeningWorld

/-- The creation fails, because the oracle has revoked the capability, and leaves what the oracle
did, which is logged. Both sinks have received it. -/
theorem published_once_withdrawn :
  ((perform withdrawingOracles 0 withdrawnCreation).run.run listeningWorld).1 =
      .error (.unauthorized ⟨6⟩ .createPermissions examplePair) ∧
    ((perform withdrawingOracles 0 withdrawnCreation).run.run listeningWorld).2 =
      consulted withdrawingOracles 0 withdrawnCreation.kind listeningWorld ∧
    Logged listeningWorld (consulted withdrawingOracles 0 withdrawnCreation.kind listeningWorld) ∧
    withdrawnWorld.current.sinks =
      [⟨"first", [.permissionSet ⟨6⟩ (Transaction.creationPair ⟨1⟩) false none]⟩,
        ⟨"second", [.permissionSet ⟨6⟩ (Transaction.creationPair ⟨1⟩) false none]⟩] ∧
    Heard withdrawnWorld.current.sinks withdrawnWorld.notes
  := by
  have nested : ∀ (handle : Unit) (q : Question) (u : World Unit (Unit × List (Deed Unit))),
      Logged u ((withdrawingOracles handle q).run u).2 :=
    fun _ _ u => Logged.act agreeable 0
      (.operation (.revoke ⟨5⟩ ⟨6⟩ (Transaction.creationPair ⟨1⟩))) (Logged.refl u) logged_agreeable
  have hlogged : Logged ((blank : World Unit Unit).keeping [])
      withdrawnWorld := by
    -- from the last thing that was done to the first
    apply Logged.act _ _ _ _ nested
    apply Logged.all nested
    apply Logged.take
    apply Logged.all nested
    exact Logged.refl _
  have hheard : ∀ w : World Unit (Unit × List (Deed Unit)),
      Logged ((blank : World Unit Unit).keeping []) w →
        Heard w.current.sinks w.notes :=
    fun w hw => (published_once.2.1 blank rfl).2 w.forget w.notes hw
  obtain ⟨hfailed, hsinks⟩ :
      ((perform withdrawingOracles 0 withdrawnCreation).run.run listeningWorld).1 =
          .error (.unauthorized ⟨6⟩ .createPermissions examplePair) ∧
        withdrawnWorld.current.sinks =
          [⟨"first", [.permissionSet ⟨6⟩ (Transaction.creationPair ⟨1⟩) false none]⟩,
            ⟨"second", [.permissionSet ⟨6⟩ (Transaction.creationPair ⟨1⟩) false none]⟩] := by
    decide +kernel
  have hleft := ((published_once.1 _ _ _).1 _).failed _ hfailed
  have hnested := (published_once.2.2 withdrawingOracles nested 0 withdrawnCreation
    listeningWorld).1
  exact ⟨hfailed, hleft, hnested, hsinks, hheard _ hlogged⟩

end World

end DelegatedAccess
