import DelegatedAccess.Decision
import DelegatedAccess.Proofs.Rule.Marks
import DelegatedAccess.Proofs.Rule.Reference

/-!
# What can go wrong in an evaluation

An evaluation of an accepted sequence fails only because of one rule by itself, or because it
gets too deep, whatever the oracles answer and do. It meets no stray operand, no rule out of
reach and no cycle, as it asks for the very operands that were looked at when the sequence was
accepted. A decision by the gates of accepted sequences is misconfigured for no other reason.
-/

namespace DelegatedAccess

variable {σ ν α β ε ι : Type}

/-- An error that the evaluation of an accepted sequence may meet under a limit: one about a rule
by itself, or that the evaluation gets too deep. -/
def RuleError.MayOccur (limit : Nat) (e : RuleError) : Prop :=
  e.IsLocal ∨ e = .depthExceeded limit

/-- If a computation failed, it failed with one of the errors. -/
def FailsOnly (E : ε → Prop) : Except ε α → Prop
  | .ok _ => True
  | .error e => E e

/-- What is made of a result does not make a computation fail. -/
theorem FailsOnly.map {E : ε → Prop} {x : Except ε α} (h : FailsOnly E x) (f : α → β) :
  FailsOnly E (x.map f)
  := by
  cases x with
  | error e => exact h
  | ok a => trivial

/-- A computation that fails with one of some errors fails with one of more errors. -/
theorem FailsOnly.mono {E F : ε → Prop} {x : Except ε α} (h : FailsOnly E x)
    (hEF : ∀ e, E e → F e) :
  FailsOnly F x
  := by
  cases x with
  | error e => exact hEF e h
  | ok a => trivial

/-- Formulas and lists of computations come to what their parts may come to, if that can be any
value. -/
theorem Finds.isCongruence {P : ν → Prop} {W : Except ε Bool → Prop} (hok : ∀ x, W (.ok x)) :
  IsCongruence fun m _ : StateT ν (ExceptT ε (StateM σ)) Bool => Finds P m W P
  where
  pure x := Finds.pure (hok x) fun _ => id
  bind hm hf := hm.bind (fun _ => id) fun x _ => hf x

/-! ### Evaluations -/

namespace Rule

/-- Only the rule itself can be in the way of selecting its value. -/
theorem failsOnly_select (panel : Panel σ) (req : Request) (i : Nat) (r : Rule)
    (source : Source) (s : σ) :
  FailsOnly RuleError.IsLocal ((select panel req i r source).run.run s).1
  := by
  cases source with
  | argument k =>
      rw [select]
      cases req.question.args[k.toNat]? <;> trivial
  | height => trivial
  | timestamp => trivial
  | oracle =>
      rw [select]
      cases panel.named? r.value <;> trivial
  | ownValue => trivial
  | reserved k => trivial

/-- Only the rule itself can be in the way of its test. -/
theorem failsOnly_test (panel : Panel σ) (req : Request) (i : Nat) (r : Rule) (source : Source)
    (c : Comparison) (s : σ) :
  FailsOnly RuleError.IsLocal ((test panel req i r source c).run.run s).1
  := by
  rw [test_run_eq]
  apply (failsOnly_select panel req i r source s).map

/-- A rule fails only because of itself, or because one of its operands does. -/
theorem carries_failsOnly {E : RuleError → Prop} (hlocal : ∀ e, e.IsLocal → E e)
    (rules : List Rule) (panel : Panel σ) (req : Request) :
  Carries rules panel req fun _ => FailsOnly E
  := by
  intro P i r ask _ hask
  rw [valueBy]
  cases hr : r.clause with
  | error defect =>
      cases defect with
      | unknownOperator => exact Finds.throw (hlocal (.unknownOperator i r.code) trivial)
      | misplacedLogic => exact Finds.throw (hlocal (.misplacedLogic i) trivial)
  | ok clause =>
      cases clause with
      | test source c =>
          apply Finds.lift
          intro s
          apply (failsOnly_test panel req i r source c s).mono hlocal
      | combine f =>
          rw [operands, hr] at hask
          exact (Finds.isCongruence fun _ => trivial).evalM_self hask

/-- An evaluation of an accepted sequence fails only because of one rule by itself, or because it
gets too deep. -/
theorem failsOnly_evaluate {rules : List Rule} (hcheck : checkStructure rules = .ok ())
    (panel : Panel σ) (req : Request) (limit : Nat) (s : σ) :
  FailsOnly (RuleError.MayOccur limit) ((evaluate rules panel req limit).run.run s).1
  := by
  obtain ⟨hroots, rank, hrank⟩ := of_checkStructure hcheck
  have hcarries : Carries rules panel req fun _ => FailsOnly (RuleError.MayOccur limit) :=
    carries_failsOnly (fun _ => Or.inl) rules panel req
  have hrule : ∀ i ∈ (graph rules).sources,
      Finds (Marked (fun _ => FailsOnly (RuleError.MayOccur limit)) [])
        (evalAt rules panel req limit (limit + 1) i i) (FailsOnly (RuleError.MayOccur limit))
        (Marked (fun _ => FailsOnly (RuleError.MayOccur limit)) []) := by
    intro i _
    apply hcarries.finds_evalAt hrank i i.isLt
    · intro j hj
      contradiction
    · exact .inr fun _ => Or.inr rfl
  rw [evaluate, hroots]
  have hroots := (Finds.isCongruence fun _ => trivial).allM_self hrule
  exact hroots.run' Marked.start s

end Rule

/-! ### Decisions -/

namespace Decision

variable {panel : Panel σ} {req : Request} {limit : Nat}

/-- A decision by a gate and others: the others are looked at unless the gate passes, and an error
of the gate is reported unless one of them passes. -/
theorem byGates_cons_run (gate : Gate) (gates : List Gate) (s : σ) :
  (byGates panel req limit (gate :: gates)).run s =
    match (gate.passes panel req limit).run.run s with
    | (.ok true, t) => (.granted, t)
    | (.ok false, t) => (byGates panel req limit gates).run t
    | (.error e, t) =>
        match (byGates panel req limit gates).run t with
        | (.granted, u) => (.granted, u)
        | (_, u) => (.misconfigured e, u)
  := by
  rw [byGates, StateT.run_bind]
  obtain ⟨x, t⟩ := (gate.passes panel req limit).run.run s
  match x with
  | .ok true => rfl
  | .ok false => rfl
  | .error e =>
      dsimp only
      change (byGates panel req limit gates >>= fun d => _).run t = _
      rw [StateT.run_bind]
      obtain ⟨d, u⟩ := (byGates panel req limit gates).run t
      cases d <;> rfl

/-- A decision is misconfigured because of an error of a gate. -/
theorem of_byGates_misconfigured {E : RuleError → Prop} {gates : List Gate}
    (h : ∀ gate ∈ gates, ∀ s, FailsOnly E ((gate.passes panel req limit).run.run s).1) {s : σ}
    {e : RuleError} (he : ((byGates panel req limit gates).run s).1 = .misconfigured e) :
  E e
  := by
  induction gates generalizing s with
  | nil => contradiction
  | cons gate gates ih =>
      have hgate := h gate List.mem_cons_self s
      rw [byGates_cons_run] at he
      split at he
      next => contradiction
      next => apply ih (fun g hg => h g (List.mem_cons_of_mem gate hg)) he
      next e' t hx =>
        rw [hx] at hgate
        split at he
        next => contradiction
        next => exact misconfigured.inj he ▸ hgate

end Decision

end DelegatedAccess
