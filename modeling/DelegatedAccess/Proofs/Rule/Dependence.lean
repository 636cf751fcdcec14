import DelegatedAccess.Proofs.Rule.Alike

/-!
# Rules depend only on what they select

The rules of a sequence read some of the call arguments, and perhaps the height or the time. Two
requests agree on what a sequence reads when they have equally many arguments, the same ones at the
places that rules select, and the same height and time as far as rules select these. Who asks, and
for which pair, is told to oracles only.

The main result of this module is that a sequence without oracle rules, well structured or not,
comes to the same value or error for requests that agree on what it reads, whatever oracles there
are.
-/

namespace DelegatedAccess.Rule

variable {σ τ : Type}

/-- Two requests agree on all that the rules of a sequence select. -/
structure AgreeOn (rules : List Rule) (req req' : Request) : Prop where
  /-- They have equally many arguments, which errors tell. -/
  length : req.question.args.length = req'.question.args.length
  argument : ∀ r ∈ rules, r.selector ≤ lastArgument →
    req.question.args[r.selector.toNat]? = req'.question.args[r.selector.toNat]?
  height : (∃ r ∈ rules, r.selector = heightSelector) → req.context.height = req'.context.height
  timestamp : (∃ r ∈ rules, r.selector = timestampSelector) →
    req.context.timestamp = req'.context.timestamp

variable {rules : List Rule} {req req' : Request}

/-- What a rule that asks no oracle selects is the same for requests that agree on it. -/
theorem AgreeOn.select (h : AgreeOn rules req req') {R : σ → τ → Prop} (panel : Panel σ)
    (panel' : Panel τ) (i : Nat) {r : Rule} (hr : r ∈ rules)
    (horacle : r.selector ≠ oracleSelector) :
  AlikeExcept R (Rule.select panel req i r (Source.ofSelector r.selector))
    (Rule.select panel' req' i r (Source.ofSelector r.selector))
  := by
  have hselects := selects_ofSelector r.selector
  generalize Source.ofSelector r.selector = source at hselects ⊢
  cases hselects with
  | argument hselector =>
      rw [Rule.select, Rule.select, ← h.argument r hr hselector, ← h.length]
      cases req.question.args[r.selector.toNat]? with
      | none => apply AlikeExcept.throw
      | some v => apply AlikeExcept.pure
  | height hselector =>
      rw [Rule.select, Rule.select, h.height ⟨r, hr, hselector⟩]
      apply AlikeExcept.pure
  | timestamp hselector =>
      rw [Rule.select, Rule.select, h.timestamp ⟨r, hr, hselector⟩]
      apply AlikeExcept.pure
  | oracle hselector => exact absurd hselector horacle
  | ownValue => apply AlikeExcept.pure
  | reserved => apply AlikeExcept.throw

/-- The tests of a sequence without oracle rules come out alike for requests that agree on what it
selects. -/
theorem AgreeOn.testsAlike (h : AgreeOn rules req req')
    (horacle : ∀ r ∈ rules, r.selector ≠ oracleSelector) (R : σ → τ → Prop) (panel : Panel σ)
    (panel' : Panel τ) :
  TestsAlike R rules panel req panel' req'
  := by
  intro r hr source c hclause i
  have hsays := says_clause r
  rw [hclause] at hsays
  cases hsays with
  | test hop hselector =>
      apply AlikeExcept.bind (h.select panel panel' i hr (horacle r hr))
      intro x
      apply AlikeExcept.pure

/-- A sequence without oracle rules comes to the same for requests that agree on what it selects,
under any oracles and any limit. No oracle is asked. -/
theorem evaluate_eq_of_agreeOn (horacle : ∀ r ∈ rules, r.selector ≠ oracleSelector)
    (h : AgreeOn rules req req') (panel : Panel σ) (panel' : Panel τ) (limit : Nat) (s : σ)
    (t : τ) :
  ∃ x, (evaluate rules panel req limit).run.run s = (x, s) ∧
    (evaluate rules panel' req' limit).run.run t = (x, t)
  := by
  -- the states are related only while they are those before the evaluation
  have halike := (h.testsAlike horacle (fun u v => u = s ∧ v = t) panel panel').evaluate limit
  obtain ⟨hresult, hs, ht⟩ := halike s t ⟨rfl, rfl⟩
  exact ⟨_, Prod.ext rfl hs, Prod.ext hresult.symm ht⟩

/-! ### An example -/

/-- The second argument is above five, or the time is below a hundred. -/
def argumentOrTime : List Rule :=
  [argument 1 (.compare .gt) 5, timestamp (.compare .lt) 100, or 0 1]

/-- A request with two arguments at time fifty. -/
def firstRequest : Request :=
  ⟨⟨⟨1⟩, ⟨.createPermissions, ⟨8⟩⟩, [3, 9]⟩, ⟨50, 7⟩⟩

/-- A request of another entity on another resource, with another first argument and at another
height. -/
def secondRequest : Request :=
  ⟨⟨⟨2⟩, ⟨.createPermissions, ⟨9⟩⟩, [4, 9]⟩, ⟨50, 8⟩⟩

/-- The two requests agree on what the sequence selects. -/
theorem agreeOn_argumentOrTime :
  AgreeOn argumentOrTime firstRequest secondRequest
  where
  length := rfl
  argument := by decide
  height := by decide
  timestamp _ := rfl

/-- The sequence does not tell the two requests apart, with no oracles or with one for every
entity. -/
theorem evaluate_eq_argumentOrTime :
  firstRequest ≠ secondRequest ∧ (∀ r ∈ argumentOrTime, r.selector ≠ oracleSelector) ∧
    AgreeOn argumentOrTime firstRequest secondRequest ∧
    ∃ x, (evaluate argumentOrTime (Panel.empty : Panel Unit) firstRequest 3).run.run () = (x, ()) ∧
      (evaluate argumentOrTime (fun _ => some fun _ => pure true : Panel Nat) secondRequest
        3).run.run 0 = (x, 0)
  := by
  have horacle : ∀ r ∈ argumentOrTime, r.selector ≠ oracleSelector := by decide
  exact ⟨by decide, horacle, agreeOn_argumentOrTime,
    evaluate_eq_of_agreeOn horacle agreeOn_argumentOrTime _ _ 3 () 0⟩

end DelegatedAccess.Rule
