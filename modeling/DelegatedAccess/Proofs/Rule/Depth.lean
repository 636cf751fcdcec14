import DelegatedAccess.Proofs.Rule.Blame

/-!
# The depth limit

An evaluation under a limit does what it does under a higher limit, until a rule is asked for at a
depth beyond the limit, and then it fails. So a limit cuts evaluations off, and changes nothing
else.

The main result of this module is that this is so for every sequence, accepted or not, and that
no evaluation is cut off by a limit that is not below the number of rules.
-/

namespace DelegatedAccess

variable {σ ν α β ε ι : Type}

/-! ### Computations that are cut off -/

/-- A computation does what another one does, from the same notes and in the same state, or it is
cut off with an error. -/
def Truncates (e : ε) (m m' : StateT ν (ExceptT ε (StateM σ)) α) : Prop :=
  ∀ v s, ((m.run v).run.run s).1 = .error e ∨ (m.run v).run.run s = (m'.run v).run.run s

namespace Truncates

variable {e : ε}

/-- A computation does what it does. -/
theorem refl (m : StateT ν (ExceptT ε (StateM σ)) α) :
  Truncates e m m
  := fun _ _ => .inr rfl

/-- A computation may be cut off at once. -/
theorem throw (m : StateT ν (ExceptT ε (StateM σ)) α) :
  Truncates e (MonadExcept.throw e) m
  := fun _ _ => .inl rfl

/-- A computation in two parts is cut off in one of them. -/
theorem bind {m m' : StateT ν (ExceptT ε (StateM σ)) α}
    {f f' : α → StateT ν (ExceptT ε (StateM σ)) β} (hm : Truncates e m m')
    (hf : ∀ a, Truncates e (f a) (f' a)) :
  Truncates e (m >>= f) (m' >>= f')
  := by
  intro v s
  rw [bind_run, bind_run]
  rcases hm v s with hcut | hsame
  · revert hcut
    generalize (m.run v).run.run s = x
    obtain ⟨x, t⟩ := x
    rintro rfl
    exact .inl rfl
  · rw [hsame]
    generalize (m'.run v).run.run s = x
    obtain ⟨x, t⟩ := x
    cases x with
    | error e' => exact .inr rfl
    | ok y => exact hf y.1 y.2 t

/-- Formulas and lists of computations are cut off with one of their parts. -/
theorem isCongruence :
  IsCongruence fun m m' : StateT ν (ExceptT ε (StateM σ)) Bool => Truncates e m m'
  where
  pure x := Truncates.refl (Pure.pure x)
  bind := Truncates.bind

/-- Dropping the notes leaves a computation cut off. -/
theorem run' {m m' : StateT ν (ExceptT ε (StateM σ)) α} (h : Truncates e m m') (v : ν) (s : σ) :
  ((m.run' v).run.run s).1 = .error e ∨ (m.run' v).run.run s = (m'.run' v).run.run s
  := by
  rw [run'_run, run'_run]
  rcases h v s with hcut | hsame
  · rw [hcut]
    exact .inl rfl
  · rw [hsame]
    exact .inr rfl

end Truncates

/-! ### Evaluations -/

namespace Rule

variable {rules : List Rule} {panel : Panel σ} {req : Request} {limit limit' : Nat}

/-- A rule is cut off with one of its operands. -/
theorem truncates_valueBy {e : RuleError}
    {ask ask' : BitVec 32 → StateT ν (ExceptT RuleError (StateM σ)) Bool}
    (h : ∀ j, Truncates e (ask j) (ask' j)) (i : Nat) (r : Rule) :
  Truncates e (valueBy panel req i r ask) (valueBy panel req i r ask')
  := by
  have hsays := says_clause r
  rw [valueBy, valueBy]
  generalize r.clause = clause at hsays ⊢
  cases hsays with
  | unknown => apply Truncates.refl
  | misplaced => apply Truncates.refl
  | test => apply Truncates.refl
  | combine => exact Truncates.isCongruence.evalM _ ask ask' fun j _ => h j

/-- A rule that is asked for with a smaller budget is evaluated as with a larger one, or cut off. -/
theorem truncates_evalAt {budget budget' : Nat} (h : budget ≤ budget') (source index : Nat) :
  Truncates (.depthExceeded limit) (evalAt rules panel req limit budget source index)
    (evalAt rules panel req limit' budget' source index)
  := by
  induction budget generalizing budget' source index with
  | zero => apply Truncates.throw
  | succ budget ih =>
      obtain _ | budget' := budget'
      · contradiction
      rcases Nat.lt_or_ge index rules.length with hindex | hindex
      · rw [evalAt_of_lt _ _ _ _ _ hindex, evalAt_of_lt _ _ _ _ _ hindex]
        apply (Truncates.refl _).bind
        intro marks
        cases marks[index] with
        | done value => apply Truncates.refl
        | visiting => apply Truncates.refl
        | pending =>
            apply (Truncates.refl _).bind
            intro _
            apply (truncates_valueBy (fun j => ih (Nat.le_of_succ_le_succ h) index j.toNat)
              index rules[index]).bind
            intro value
            apply Truncates.refl
      · rw [evalAt_of_le _ _ _ _ _ hindex, evalAt_of_le _ _ _ _ _ hindex]
        apply Truncates.refl

/-- An evaluation under a limit is the one under a higher limit, or it is cut off. -/
theorem truncates_evaluate (h : limit ≤ limit') (s : σ) :
  ((evaluate rules panel req limit).run.run s).1 = .error (.depthExceeded limit) ∨
    (evaluate rules panel req limit).run.run s = (evaluate rules panel req limit').run.run s
  := by
  rw [evaluate, evaluate]
  cases roots rules with
  | error e => exact .inr rfl
  | ok roots =>
      apply Truncates.run'
      apply Truncates.isCongruence.allM
      intro i _
      apply truncates_evalAt (Nat.succ_le_succ h)

/-- An evaluation is cut off only by a limit below the number of rules. -/
theorem evaluate_ne_depthExceeded (h : rules.length ≤ limit) (d : Nat) (s : σ) :
  ((evaluate rules panel req limit).run.run s).1 ≠ .error (.depthExceeded d)
  := by
  intro hcut
  have htruthful := (evaluate_nests rules panel req limit s).2
  rw [hcut] at htruthful
  obtain ⟨rfl, hlt, _⟩ := htruthful
  omega

/-- An evaluation under a limit comes to what it comes to under a higher limit, and leaves the same
state, unless it is cut off. It is never cut off by a limit that is not below the number of rules.
Under any limit its calls are nested no deeper than one more than this number, as an evaluation
with a gauge shows, which is no different otherwise. -/
theorem evaluate_limit (rules : List Rule) (panel : Panel σ) (req : Request) {limit limit' : Nat}
    (h : limit ≤ limit') (s : σ) :
  (((evaluate rules panel req limit).run.run s).1 = .error (.depthExceeded limit) ∨
      (evaluate rules panel req limit).run.run s = (evaluate rules panel req limit').run.run s) ∧
    (rules.length ≤ limit →
      ∀ d, ((evaluate rules panel req limit).run.run s).1 ≠ .error (.depthExceeded d)) ∧
    (gaugeAll rules panel req limit).run.run (s, 0) =
      (((evaluate rules panel req limit).run.run s).1,
        (((evaluate rules panel req limit).run.run s).2, deepest rules panel req limit s)) ∧
    deepest rules panel req limit s ≤ rules.length + 1
  := by
  refine ⟨truncates_evaluate h s, ?_, gaugeAll_run rules panel req limit s,
    (evaluate_nests rules panel req limit s).1⟩
  intro hlimit d
  exact evaluate_ne_depthExceeded hlimit d s

/-- A limit of three is enough for three rules, whatever refers to whatever. -/
theorem evaluate_limit_knot :
  3 ≤ 64 ∧
    (evaluate knot noOracles emptyRequest 3).run.run () =
      (evaluate knot noOracles emptyRequest 64).run.run () ∧
    deepest knot noOracles emptyRequest 3 () ≤ 4
  := by
  have hlimit : 3 ≤ 64 := by decide
  obtain ⟨hcut, hnever, _, hdeepest⟩ := evaluate_limit knot noOracles emptyRequest hlimit ()
  exact ⟨hlimit, hcut.resolve_left (hnever (by decide) 3), hdeepest⟩

/-- The call that comes back to a rule on the stack is counted. -/
example : deepest knot noOracles emptyRequest 3 () = 4 := by
  decide +kernel

end Rule

end DelegatedAccess
