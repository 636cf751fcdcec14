import DelegatedAccess.Proofs.Creation
import DelegatedAccess.Proofs.Exclusivity

/-!
# What oracles leave to an operation

A creation that an instance considers asks oracles before its transaction begins, and no other
operation asks any. What an operation does itself begins in the world that the oracles have left.

The main result of this module is that an operation either fails and leaves that very world, or
commits one draft there.
-/

namespace DelegatedAccess.World

variable {η ω : Type}

/-- A world leads to another by what oracles do when they are asked, and nothing else. -/
def Asked (behave : Behaviour η ω) : World η ω → World η ω → Prop :=
  Relation.ReflTransGen fun u v => ∃ handle q, v = ((behave handle q).run u).2

/-- The world that the oracles have left when an operation begins to do something itself. -/
def consulted (behave : Behaviour η ω) (now : UInt64) (kind : Operation.Kind) (w : World η ω) :
    World η ω :=
  match kind with
  | .create c =>
      if c.IsConsidered w.current then
        ((decide behave (c.request w.current.config.resource now)).run w).2
      else w
  | _ => w

section

variable {R : World η ω → World η ω → Prop} {behave : Behaviour η ω}

/-- Before an operation the world is moved no further than the oracles move it. -/
theorem consulted_moves (h : behave.MovesWithin R) (hrefl : ∀ w, R w w)
    (htrans : ∀ u v w, R u v → R v w → R u w) (now : UInt64) (kind : Operation.Kind)
    (w : World η ω) :
  R w (consulted behave now kind w)
  := by
  cases kind with
  | create c =>
      rw [consulted]
      split
      · apply decide_moves h hrefl htrans
      · apply hrefl
  | bootstrap root => apply hrefl
  | freeze => apply hrefl
  | manage caller p task => apply hrefl

/-- Before an operation nothing happens but what oracles do. -/
theorem asked_consulted (behave : Behaviour η ω) (now : UInt64) (kind : Operation.Kind)
    (w : World η ω) :
  Asked behave w (consulted behave now kind w)
  := consulted_moves (fun handle q _ => Relation.ReflTransGen.single ⟨handle, q, rfl⟩)
    (fun _ => Relation.ReflTransGen.refl) (fun _ _ _ => Relation.ReflTransGen.trans) now kind w

/-- With oracles that leave the instance alone, an operation begins on the instance as it was. -/
theorem Behaviour.IsInert.current_consulted (h : behave.IsInert) (now : UInt64)
    (kind : Operation.Kind) (w : World η ω) :
  (consulted behave now kind w).current = w.current
  := consulted_moves h.movesWithin (fun _ => rfl) (fun _ _ _ huv hvw => hvw.trans huv) now kind w

/-- A creation that is not considered asks nobody. -/
theorem consulted_of_not_considered {c : Creation} {w : World η ω}
    (h : ¬ c.IsConsidered w.current) (now : UInt64) :
  consulted behave now (.create c) w = w
  := by
  rw [consulted, if_neg h]

end

/-! ### What operations come to -/

/-- What an operation came to, from a world to another: it failed and left the world that the
oracles have left, or committed the draft of its kind to it. -/
inductive Concluded (behave : Behaviour η ω) (now : UInt64) (kind : Operation.Kind)
    (w : World η ω) : Except AccessError Receipt → World η ω → Prop
  | failed (e : AccessError) : Concluded behave now kind w (.error e) (consulted behave now kind w)
  | done {d : Draft} (hscreen : kind.screen w.current.config = .ok ())
      (hdrafted : Drafted w.current.config.resource (consulted behave now kind w).current.store
        kind d) :
      Concluded behave now kind w (.ok d.receipt) ((consulted behave now kind w).settle d)

/-- A transaction whose drafts are those of a kind is concluded in one of the two ways. -/
theorem concluded_commit {behave : Behaviour η ω} {now : UInt64} {kind : Operation.Kind}
    {w v : World η ω} {t : Transaction} (hscreen : kind.screen w.current.config = .ok ())
    (hv : consulted behave now kind w = v)
    (ht : ∀ d, t v.current.store = .ok d →
      Drafted w.current.config.resource v.current.store kind d) :
  Concluded behave now kind w ((commit t).run.run v).1 ((commit t).run.run v).2
  := by
  subst hv
  rw [commit_run]
  cases h : t (consulted behave now kind w).current.store with
  | error e => apply Concluded.failed
  | ok d => exact Concluded.done hscreen (ht d h)

/-- A creation with screened input is concluded in one of the two ways. -/
theorem concluded_establish {behave : Behaviour η ω} {now : UInt64} {c : Creation}
    {w : World η ω} (hscreen : (Operation.Kind.create c).screen w.current.config = .ok ()) :
  Concluded behave now (.create c) w
    ((establish behave now c.caller c.pair c.grantee c.manager).run.run w).1
    ((establish behave now c.caller c.pair c.grantee c.manager).run.run w).2
  := by
  have hrefused : ∀ e, ¬ c.IsConsidered w.current →
      Concluded behave now (.create c) w (.error e) w := by
    intro e hnot
    have hfailed : Concluded behave now (.create c) w (.error e)
        (consulted behave now (.create c) w) := Concluded.failed e
    rwa [consulted_of_not_considered hnot] at hfailed
  rcases hdecide : (decide behave (c.request w.current.config.resource now)).run w with
    ⟨decision, v⟩
  rw [establish_run hdecide]
  split
  next hnot => exact hrefused _ fun h => nomatch hnot.symm.trans h.initialized
  next hinitialized =>
    split
    next hcaller => exact hrefused _ fun h => h.actor hcaller
    next hcaller =>
      have hv : consulted behave now (.create c) w = v := by
        rw [consulted, if_pos ⟨hscreen, Bool.not_eq_false _ ▸ hinitialized, hcaller⟩, hdecide]
      split
      · apply concluded_commit hscreen hv
        intro d
        apply drafted_of_create hcaller
      · subst hv
        apply Concluded.failed

/-- Every operation is concluded in one of the two ways. -/
theorem concluded_perform (behave : Behaviour η ω) (now : UInt64) (op : Operation)
    (w : World η ω) :
  Concluded behave now op.kind w ((perform behave now op).run.run w).1
    ((perform behave now op).run.run w).2
  := by
  rw [perform_run]
  generalize op.kind = kind
  cases hscreen : kind.screen w.current.config with
  | error e =>
      have hfailed : Concluded behave now kind w (.error e) (consulted behave now kind w) :=
        Concluded.failed e
      cases kind with
      | create c =>
          rwa [consulted_of_not_considered fun h => nomatch hscreen.symm.trans h.screened]
            at hfailed
      | bootstrap root => exact hfailed
      | freeze => exact hfailed
      | manage caller p task => exact hfailed
  | ok _ =>
      cases kind with
      | bootstrap root =>
          apply concluded_commit hscreen rfl
          intro d
          apply drafted_of_bootstrap
      | freeze =>
          apply concluded_commit hscreen rfl
          intro d
          apply drafted_of_freeze
      | manage caller p task =>
          apply concluded_commit hscreen rfl
          intro d
          apply drafted_of_task
      | create c => apply concluded_establish hscreen

end DelegatedAccess.World
