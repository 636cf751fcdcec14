import DelegatedAccess.Proofs.Run

/-!
# Burned pairs

A pair whose manager is burned stays as it is in every run: its manager stays burned, its
grants stay what they are, and the rule sequences they are under stay byte for byte. So a
request on the pair is decided as before, as long as rules are evaluated to the same depth
and the oracles answer the same.
-/

namespace DelegatedAccess

variable {η ω : Type}

namespace Store

/-- A step leaves the part of a burned pair. -/
theorem Step.part_of_burned {s t : Store} (h : s.Step t) (hs : s.Sound) {p : Pair}
    (hburned : s.manager? p = .ok (some .burn)) :
  t.part p = s.part p
  := by
  cases h with
  | bootstrap resource root now hroot hfrozen hinitialized =>
      rw [manager?, hs.unmanaged hinitialized, Table.get?_empty] at hburned
      contradiction
  | freeze hfrozen hinitialized => apply part_putAbout
  | refreeze hfrozen => rfl
  | create c hinput hinitialized hcaller hfree =>
      apply part_creation_of_ne
      rintro rfl
      rw [hfree] at hburned
      contradiction
  | manage caller q task hinput hinitialized hcaller hmanager =>
      apply part_task_of_ne
      rintro rfl
      rw [hmanager] at hburned
      obtain rfl := Option.some.inj (Except.ok.inj hburned)
      apply hcaller (Or.inr rfl)

/-- Any number of steps leave the part of a burned pair. -/
theorem Steps.part_of_burned {s t : Store} (h : s.Steps t) (hs : s.Sound) {p : Pair}
    (hburned : s.manager? p = .ok (some .burn)) :
  t.part p = s.part p
  := by
  induction h with
  | refl => rfl
  | tail hsteps hstep ih =>
      rw [hstep.part_of_burned (Steps.sound hsteps hs), ih]
      rw [manager?_eq_of_part ih, hburned]

/-- The gate of a grant stays what it is, as its rule sequence is kept. -/
theorem gate_eq_of_keepsRules {s t : Store} (hs : s.Sound) (hkeeps : s.KeepsRules t) {p : Pair}
    {e : Entity} {g : Grant} (hg : s.grant? p e = some g) :
  t.gate g = s.gate g
  := by
  cases g with
  | unconditional => rfl
  | conditional r =>
      obtain ⟨bs, hbs⟩ := Option.isSome_iff_exists.mp (hs.backed p e r hg)
      rw [gate, gate, loadRules, hkeeps _ _ hbs, loadRules, hbs]

end Store

namespace World

/-- A request is decided the same in two worlds, when its pair and the gates of its grants are
the same in both, and so are the depth of evaluation and what the oracles answer. -/
theorem decide_eq {w v : World η ω} {behave behave' : Behaviour η ω}
    {R : World η ω → World η ω → Prop} (hrel : R w v)
    (hpanel : (panel behave w.current).Alike R (panel behave' v.current))
    (hdepth : w.current.config.maxDepth = v.current.config.maxDepth) {req : Request}
    (hpart : v.current.store.part req.question.pair = w.current.store.part req.question.pair)
    (hgate : ∀ e g, w.current.store.grant? req.question.pair e = some g →
      v.current.store.gate g = w.current.store.gate g) :
  ((decide behave req).run w).1 = ((decide behave' req).run v).1
  := by
  have hgates := Store.gates_eq_of_holders (Store.holders_eq_of_part hpart req.question.who)
    fun e g hg _ => hgate e g hg
  exact (decide_eq_of_gates hpanel hdepth.symm hgates hrel).1

/-- A burned pair stays burned in every run, with the same bytes for its manager, its grants
and their rule sequences, and a request on it is decided as before as long as the depth of
evaluation and what the oracles answer are the same. -/
theorem burned_forever {w v : World η ω} (hw : w.IsReachable) {p : Pair}
    (hburned : w.current.store.manager? p = .ok (some .burn)) (hrun : Run w v) :
  v.current.store.manager? p = .ok (some .burn) ∧
    v.current.store.part p = w.current.store.part p ∧
    (∀ e r, w.current.store.grant? p e = some (.conditional r) →
      ∃ bs, w.current.store.rules.get? r.bytes = some bs ∧
        v.current.store.rules.get? r.bytes = some bs) ∧
    ∀ (behave behave' : Behaviour η ω) (R : World η ω → World η ω → Prop), R w v →
      (panel behave w.current).Alike R (panel behave' v.current) →
      w.current.config.maxDepth = v.current.config.maxDepth →
      ∀ (now now' : UInt64) (req : Request), req.question.pair = p →
        ((answer behave now (.check req)).run.run w).1 =
          ((answer behave' now' (.check req)).run.run v).1
  := by
  have hsound := hw.sound
  have hpart := hrun.steps.part_of_burned hsound hburned
  have hkeeps := hrun.steps.keepsRules
  refine ⟨?_, hpart, ?_, ?_⟩
  · rw [Store.manager?_eq_of_part hpart, hburned]
  · intro e r hr
    obtain ⟨bs, hbs⟩ := Option.isSome_iff_exists.mp (hsound.backed p e r hr)
    exact ⟨bs, hbs, hkeeps _ _ hbs⟩
  · rintro behave behave' R hrel hpanel hdepth now now' req rfl
    rw [answer_check_run, answer_check_run]
    rw [decide_eq hrel hpanel hdepth hpart]
    intro e g hg
    apply Store.gate_eq_of_keepsRules hsound hkeeps hg

/-! ### An example -/

/-- A world in which a pair was granted under a rule and then burned. -/
def exampleBurned : World Unit Unit :=
  play agreeable 0
    [.operation (.bootstrap ⟨5⟩), .operation (.create ⟨5⟩ ⟨7⟩ examplePair ⟨8⟩ [.always]),
      .operation (.burnManager ⟨8⟩ examplePair)] blank

/-- The same world after others tried to become the manager of the pair, to create it again
and to initialize the instance again, and after another pair was created under the same rule
and the store opened anew. -/
def exampleAttempts : World Unit Unit :=
  play agreeable 1
    [.operation (.bootstrap ⟨6⟩), .operation (.setManager ⟨8⟩ ⟨6⟩ examplePair),
      .operation (.setManager .burn ⟨6⟩ examplePair),
      .operation (.create ⟨5⟩ ⟨6⟩ examplePair ⟨6⟩ []),
      .operation (.create ⟨5⟩ ⟨7⟩ otherPair ⟨8⟩ [.always]),
      .reopen { maxRules := 7 } false] exampleBurned

/-- The burned pair stays as it is under all attempts. -/
theorem burned_forever_under_attempts :
  exampleBurned.IsReachable ∧ Run exampleBurned exampleAttempts ∧
    exampleBurned.current.store.manager? examplePair = .ok (some .burn) ∧
    exampleBurned.current.store.grant? examplePair ⟨7⟩ =
      some (.conditional (RuleRef.of [.always])) ∧
    exampleAttempts.current.store.manager? examplePair = .ok (some .burn) ∧
    exampleAttempts.current.store.part examplePair =
      exampleBurned.current.store.part examplePair ∧
    ∀ (behave : Behaviour Unit Unit) (now : UInt64) (req : Request),
      req.question.pair = examplePair →
        ((answer behave now (.check req)).run.run exampleBurned).1 =
          ((answer behave now (.check req)).run.run exampleAttempts).1
  := by
  have hw : exampleBurned.IsReachable := isReachable_play run_agreeable 0 _
  have hrun : Run exampleBurned exampleAttempts := Run.play run_agreeable 1 _ (Run.refl _)
  have hburned : exampleBurned.current.store.manager? examplePair = .ok (some .burn) := by
    decide +kernel
  have hgrant : exampleBurned.current.store.grant? examplePair ⟨7⟩ =
      some (.conditional (RuleRef.of [.always])) := by
    decide +kernel
  obtain ⟨hstays, hpart, _, hdecision⟩ := burned_forever hw hburned hrun
  refine ⟨hw, hrun, hburned, hgrant, hstays, hpart, ?_⟩
  intro behave now req
  have hpanel : (panel behave exampleBurned.current).Alike (fun _ _ => True)
      (panel behave exampleAttempts.current) := fun _ => Option.Rel.none
  apply hdecision behave behave (fun _ _ => True) trivial hpanel rfl

end World

end DelegatedAccess
