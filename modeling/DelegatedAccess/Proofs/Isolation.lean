import DelegatedAccess.Proofs.Host

/-!
# Checks are isolated from what oracles do

Everything that a check depends on is read before the first oracle is asked: the grants that count,
their rule sequences, the registry of the oracles, and the depth that may be reached. An oracle may
change any of this while it is asked, and the check will not notice.

The main result of this module is that a check whose oracles answer by the question alone comes to
the same, with the same calls in the same order, as if the oracles did nothing but answer.
-/

namespace DelegatedAccess.World

variable {η ω : Type}

/-! ### Oracles that only answer, and the calls of oracles -/

/-- Oracles that give these answers and do nothing else. -/
def quiet (answers : η → Question → Bool) : Behaviour η ω :=
  fun handle q => pure (answers handle q)

/-- The oracles, each call of which is noted by the host before the oracle is asked. What an oracle
does when it is asked is not noted, even if it has other oracles asked. -/
def noting (behave : Behaviour η ω) : Behaviour η (ω × List (η × Question)) :=
  fun handle q w =>
    let (yes, v) := (behave handle q).run w.forget
    (yes, v.keeping (w.notes ++ [(handle, q)]))

/-- Calls are noted without any other difference. -/
theorem alike_noting (behave : Behaviour η ω) :
  (noting behave).Alike (fun w v => w.forget = v) behave
  := by
  rintro handle q w _ rfl
  exact ⟨rfl, rfl⟩

/-- A check comes to the same when calls are noted. -/
theorem check_noting_run (behave : Behaviour η ω) (now : UInt64) (req : Request) (w : World η ω)
    (calls : List (η × Question)) :
  ((answer (noting behave) now (.check req)).run.run (w.keeping calls)).1 =
      ((answer behave now (.check req)).run.run w).1 ∧
    ((answer (noting behave) now (.check req)).run.run (w.keeping calls)).2.forget =
      ((answer behave now (.check req)).run.run w).2
  := alike_answer (alike_noting behave) sameInstance_forget now (.check req) (w.keeping calls) w rfl

/-- Oracles that give the same answers are asked the same, however they change the world. -/
theorem alike_noting_quiet {behave : Behaviour η ω} {answers : η → Question → Bool}
    (h : ∀ handle q u, ((behave handle q).run u).1 = answers handle q) (w : World η ω) :
  (noting behave).Alike (fun u v => v = w.keeping u.notes) (noting (quiet answers))
  := by
  rintro handle q u _ rfl
  exact ⟨h handle q u.forget, rfl⟩

/-! ### Checks -/

/-- A check whose oracles answer by the question alone comes to a decision, after a sequence of
calls, both of which are those of a check from the same world by oracles that only answer. Such a
check leaves the world as it was, but for the note of the calls, so that both are found in the
store and the registry as they were when the check began. -/
theorem check_isolated {behave : Behaviour η ω} {answers : η → Question → Bool}
    (h : ∀ handle q u, ((behave handle q).run u).1 = answers handle q) (now : UInt64)
    (req : Request) (w : World η ω) :
  ∃ (d : Decision) (calls : List (η × Question)),
    (answer (noting (quiet answers)) now (.check req)).run.run (w.keeping []) =
        (.ok (.decision d), w.keeping calls) ∧
      (answer (noting behave) now (.check req)).run.run (w.keeping []) =
        (.ok (.decision d), ((answer behave now (.check req)).run.run w).2.keeping calls) ∧
      ((answer behave now (.check req)).run.run w).1 = .ok (.decision d)
  := by
  -- the two checks with notes, from the same world
  obtain ⟨hdecision, hworld⟩ := alike_decide (alike_noting_quiet h w) req
    (rfl : w.keeping [] = w.keeping (w.keeping []).notes) rfl
  obtain ⟨hanswer, hforget⟩ := check_noting_run behave now req w []
  rw [check_run] at hanswer hforget
  refine ⟨((decide (noting behave) req).run (w.keeping [])).1,
    ((decide (noting behave) req).run (w.keeping [])).2.notes, ?_, ?_, hanswer.symm⟩
  · rw [check_run, ← hdecision, hworld]
  · rw [check_run, ← hforget, keeping_forget]

/-! ### An example -/

/-- A request on a pair. -/
def intrudedRequest : Request :=
  ⟨⟨⟨7⟩, examplePair, []⟩, ⟨0, 0⟩⟩

/-- An oracle that says no, and one that says yes. The one that says no revokes the grant of the
pair to every entity, puts the grant that is being evaluated under another rule, and registers
itself in place of the other oracle. -/
def intrudingOracles : Behaviour Bool Unit :=
  fun handle _ w => (handle,
    if handle then w
    else play (quiet fun handle _ => handle) 0
      [.operation (.revoke ⟨8⟩ .any intrudedRequest.question.pair),
        .operation (.grant ⟨8⟩ ⟨7⟩ intrudedRequest.question.pair [.never]),
        .register ⟨4⟩ false] w)

/-- A world in which the pair is granted to an entity under the oracle that says no, and to every
entity under the one that says yes. -/
def intrudedWorld : World Bool Unit :=
  play intrudingOracles 0
    [.operation (.bootstrap ⟨5⟩), .register ⟨3⟩ false, .register ⟨4⟩ true,
      .operation (.create ⟨5⟩ ⟨7⟩ intrudedRequest.question.pair ⟨8⟩ [.oracle ⟨3⟩]),
      .operation (.grant ⟨8⟩ .any intrudedRequest.question.pair [.oracle ⟨4⟩])]
    blank

/-- The check asks both oracles as they were registered and grants the request. Only a check that
begins afterwards is denied. -/
theorem check_isolated_intruded :
  ((answer (noting intrudingOracles) 0 (.check intrudedRequest)).run.run
      (intrudedWorld.keeping [])).1 = .ok (.decision .granted) ∧
    ((answer (noting intrudingOracles) 0 (.check intrudedRequest)).run.run
      (intrudedWorld.keeping [])).2.notes =
        [(false, intrudedRequest.question), (true, intrudedRequest.question)] ∧
    ((answer intrudingOracles 0 (.check intrudedRequest)).run.run
      ((answer intrudingOracles 0 (.check intrudedRequest)).run.run intrudedWorld).2).1 =
        .ok (.decision .denied)
  := by
  have hanswers : ∀ (handle : Bool) (q : Question) (u : World Bool Unit),
      ((intrudingOracles handle q).run u).1 = handle := fun _ _ _ => rfl
  obtain ⟨hgranted, hcalls, hdenied⟩ :
      ((answer (noting (quiet fun handle _ => handle)) 0 (.check intrudedRequest)).run.run
          (intrudedWorld.keeping [])).1 = .ok (.decision .granted) ∧
        ((answer (noting (quiet fun handle _ => handle)) 0 (.check intrudedRequest)).run.run
          (intrudedWorld.keeping [])).2.notes =
            [(false, intrudedRequest.question), (true, intrudedRequest.question)] ∧
        ((answer intrudingOracles 0 (.check intrudedRequest)).run.run
          ((answer intrudingOracles 0 (.check intrudedRequest)).run.run intrudedWorld).2).1 =
            .ok (.decision .denied) := by
    decide +kernel
  obtain ⟨d, calls, hquiet, hnoted, _⟩ := check_isolated hanswers 0 intrudedRequest intrudedWorld
  rw [hquiet] at hgranted hcalls
  rw [hnoted]
  refine ⟨hgranted, ?_, hdenied⟩
  dsimp only at hcalls ⊢
  rw [notes_keeping] at hcalls ⊢
  exact hcalls

end DelegatedAccess.World
