import DelegatedAccess.Proofs.Rule.Cyclic
import DelegatedAccess.Proofs.Rule.Nesting

/-!
# What errors of evaluations say

An error of an evaluation says what is wrong, with a rule that it names or with the sequence. An
error about one rule names a rule that is reached from a top-level rule. A cycle is noticed when a
rule is asked for that is on the stack, and the stack is then the cycle, or leads into it. An
evaluation that gets too deep has a walk from a top-level rule on its stack, without repetitions,
so that this never happens when the limit allows for all rules.

The main result of this module is that what an error says is so, for every sequence, accepted or
not, and whatever the oracles do.
-/

namespace DelegatedAccess

variable {σ ν : Type}

/-- A value names no oracle when none is registered for the entity with that number. -/
theorem Panel.named?_eq_none_iff (panel : Panel σ) (v : Value) :
  panel.named? v = none ↔ ∀ e : Entity, e.toNat = v.toNat → panel e = none
  := by
  rw [named?, Option.bind_eq_none_iff]
  apply forall_congr'
  intro e
  rw [Entity.ofNat?_eq_some_iff, eq_comm]

/-- No value beyond 64 bits names an oracle. -/
theorem Panel.named?_eq_none_of_le (panel : Panel σ) {v : Value} (h : UInt64.size ≤ v.toNat) :
  panel.named? v = none
  := by
  rw [named?_eq_none_iff]
  intro e he
  have hlt : e.toNat < UInt64.size := e.id.toNat_lt
  omega

namespace Rule

variable {rules : List Rule} {panel : Panel σ} {req : Request} {limit : Nat}

/-! ### What errors say -/

/-- The rule at an index is reached and has some property. -/
def IsReachedWith (rules : List Rule) (i : Nat) (p : Rule → Prop) : Prop :=
  IsReached rules i ∧ ∃ r, rules[i]? = some r ∧ p r

/-- A walk along operands, with a number of edges, begins at a top-level rule. -/
def HasWalk (rules : List Rule) (edges : Nat) : Prop :=
  ∃ walk : List Nat, walk.length = edges + 1 ∧ walk.IsChain (Refers rules) ∧
    ∃ i, walk.head? = some i ∧ IsTop rules i

/-- What an error says of an evaluation under a limit is so. -/
def IsTruthful (rules : List Rule) (panel : Panel σ) (req : Request) (limit : Nat) :
    RuleError → Prop
  | .argumentOutOfRange i k n => IsReachedWith rules i fun r =>
      r.selector = k ∧ k ≤ 199 ∧ n = req.question.args.length ∧ n ≤ k.toNat
  | .unknownOperator i c => IsReachedWith rules i fun r =>
      r.code = c ∧ ∀ op : Operator, op.code ≠ c
  | .misplacedLogic i => IsReachedWith rules i fun r =>
      ∃ op, r.operator? = some op ∧ ¬ (op.isLogic = true ↔ r.selector = logicSelector)
  | .unknownSelector i k => IsReachedWith rules i fun r =>
      r.selector = k ∧ (k = 202 ∨ 206 ≤ k)
  | .unknownOracle i v => IsReachedWith rules i fun r =>
      r.selector = oracleSelector ∧ (∃ c, r.operator? = some (.compare c)) ∧ r.value = v ∧
        ∀ e : Entity, e.toNat = v.toNat → panel e = none
  | .cycle i => IsReached rules i ∧ Relation.TransGen (Refers rules) i i
  | .operandOutOfRange i j n =>
      roots rules = .error (.operandOutOfRange i j n) ∧ n = rules.length ∧ FirstStray rules i j
  | .unreachable i =>
      roots rules = .error (.unreachable i) ∧ InRange rules ∧
        IsLeast {j | j < rules.length ∧ ¬ IsReached rules j} i
  | .depthExceeded d => d = limit ∧ d < rules.length ∧ HasWalk rules (d + 1)
  | .missingRules _ => False
  | .corrupted _ => False

/-- A stack and the rule that is asked for are a walk from a top-level rule. -/
theorem Descends.hasWalk {stack : List Nat} {i : Nat} (h : Descends rules stack i) :
  HasWalk rules stack.length
  := by
  refine ⟨(i :: stack).reverse, by simp, ?_, ?_⟩
  · rw [List.isChain_reverse]
    exact h.isChain
  · rw [List.head?_reverse]
    exact h.exists_top

/-! ### Errors about one rule -/

/-- A selector that is none of those with a meaning is 202 or at least 206. -/
theorem eq_or_le_of_reserved {s : UInt8} (hargument : ¬ s ≤ lastArgument)
    (hheight : s ≠ heightSelector) (htimestamp : s ≠ timestampSelector)
    (horacle : s ≠ oracleSelector) (hlogic : s ≠ logicSelector) (hown : s ≠ ownValueSelector) :
  s = 202 ∨ 206 ≤ s
  := by
  have hnat : ∀ k : UInt8, s ≠ k → s.toNat ≠ k.toNat := by
    intro k hne heq
    apply hne (UInt8.toNat_inj.mp heq)
  have hargument : ¬ s.toNat ≤ 199 := hargument
  have hheight : s.toNat ≠ 200 := hnat _ hheight
  have htimestamp : s.toNat ≠ 201 := hnat _ htimestamp
  have horacle : s.toNat ≠ 203 := hnat _ horacle
  have hlogic : s.toNat ≠ 204 := hnat _ hlogic
  have hown : s.toNat ≠ 205 := hnat _ hown
  rw [← UInt8.toNat_inj, UInt8.le_iff_toNat_le]
  change s.toNat = 202 ∨ 206 ≤ s.toNat
  omega

/-- A rule whose value cannot be selected is at fault as the error says. -/
theorem failsOnly_selected {i : Nat} {r : Rule} {c : Comparison} (hreached : IsReached rules i)
    (hr : rules[i]? = some r) (hop : r.operator? = some (.compare c))
    (hselector : r.selector ≠ logicSelector) (s : σ) :
  FailsOnly (IsTruthful rules panel req limit) (selected (panel.answersAt s) req i r)
  := by
  have hselects := selects_ofSelector r.selector
  generalize Source.ofSelector r.selector = source at hselects
  cases hselects with
  | argument hargument =>
      rw [selected, if_pos hargument]
      split
      next => trivial
      next hnone =>
        exact ⟨hreached, r, hr, rfl, hargument, rfl, List.getElem?_eq_none_iff.mp hnone⟩
  | height hheight =>
      rw [selected, hheight]
      trivial
  | timestamp htimestamp =>
      rw [selected, htimestamp]
      trivial
  | oracle horacle =>
      rw [selected, horacle, if_neg (by decide), if_neg (by decide), if_neg (by decide), if_pos rfl]
      split
      next => trivial
      next hnone =>
        refine ⟨hreached, r, hr, horacle, ⟨c, hop⟩, rfl, ?_⟩
        intro e he
        rw [Entity.ofNat?_eq_some_iff.mpr he.symm, Option.bind_some, Panel.answersAt] at hnone
        exact Option.map_eq_none_iff.mp hnone
  | ownValue hown =>
      rw [selected, hown]
      trivial
  | reserved hargument hheight htimestamp horacle hown =>
      rw [selected, if_neg hargument, if_neg hheight, if_neg htimestamp, if_neg horacle,
        if_neg hown]
      exact ⟨hreached, r, hr, rfl, eq_or_le_of_reserved hargument hheight htimestamp horacle
        hselector hown⟩

/-- A rule whose test fails is at fault as the error says. -/
theorem failsOnly_compared {i : Nat} {r : Rule} {c : Comparison} (hreached : IsReached rules i)
    (hr : rules[i]? = some r) (hop : r.operator? = some (.compare c))
    (hselector : r.selector ≠ logicSelector) (s : σ) :
  FailsOnly (IsTruthful rules panel req limit) (compared (panel.answersAt s) req i r c)
  := by
  have hselected : FailsOnly (IsTruthful rules panel req limit) _ :=
    failsOnly_selected hreached hr hop hselector s
  rw [compared]
  revert hselected
  cases selected (panel.answersAt s) req i r with
  | error e => exact id
  | ok x => exact fun _ => trivial

/-- A rule fails as it is at fault by itself, or as one of its operands does. -/
theorem nests_valueBy {bound : Nat} {P : ν → Prop} {i : Nat} {r : Rule}
    {ask : BitVec 32 → StateT ν (ExceptT RuleError (StateM (σ × Nat))) Bool}
    (hreached : IsReached rules i) (hr : rules[i]? = some r)
    (hask : ∀ j ∈ r.operands, Nests bound (IsTruthful rules panel req limit) P (ask j) P) :
  Nests bound (IsTruthful rules panel req limit) P (valueBy panel.gauging req i r ask) P
  := by
  have hsays := says_clause r
  rw [operands] at hask
  rw [valueBy]
  generalize r.clause = clause at hsays hask ⊢
  cases hsays with
  | unknown hop =>
      apply Nests.throw
      intro _ _
      refine ⟨hreached, r, hr, rfl, ?_⟩
      intro op hcode
      rw [operator?, Operator.ofCode?_eq_some_iff.mpr hcode.symm] at hop
      contradiction
  | @misplaced op hop hmix =>
      apply Nests.throw
      intro _ _
      exact ⟨hreached, r, hr, op, hop, hmix⟩
  | @test c hop hselector =>
      apply Nests.lift ((panel.alike_gauging (· ≤ bound)).test req i r _ c)
      intro s
      rw [test_run]
      exact failsOnly_compared hreached hr hop hselector s
  | @combine k hop hselector => exact Nests.isCongruence.evalM_self hask

/-! ### Errors of evaluations -/

/-- A rule that is asked for with a stack nests its calls no deeper than the sequence has rules, and
one more for a call that is refused, and an error says what is so. -/
theorem nests_measureAt (hin : InRange rules) (hreached : ∀ i < rules.length, IsReached rules i)
    {budget : Nat} (source : Nat) {i : Nat} {stack : List Nat} (h : Descends rules stack i)
    (hbudget : stack.length + budget = limit + 1) :
  Nests (rules.length + 1) (IsTruthful rules panel req limit) (Stacked stack)
    (measureAt (.gauge panel) rules req limit budget (stack.length + 1) source i) (Stacked stack)
  := by
  -- An operand is asked for with one rule more on the stack and one less in the budget.
  induction budget generalizing source i stack with
  | zero =>
      have hlength := h.length_le
      apply Nests.asked (Nat.succ_le_succ hlength)
      apply Nests.throw
      intro _ _
      refine ⟨rfl, by omega, ?_⟩
      rw [← hbudget]
      exact h.hasWalk
  | succ budget ih =>
      have hi := h.index_lt hin
      rw [measureAt, dif_pos hi]
      apply Nests.asked (Nat.succ_le_succ h.length_le)
      apply Nests.get
      intro marks hmarks
      cases hmark : marks[i] with
      | done x =>
          apply Nests.pure
          rintro _ rfl
          exact hmarks
      | visiting =>
          apply Nests.throw
          intro _ _
          exact ⟨hreached i hi, h.transGen ((hmarks i hi).mp hmark)⟩
      | pending =>
          have hnot : i ∉ stack := by
            intro hmem
            rw [(hmarks i hi).mpr hmem] at hmark
            contradiction
          have hr : rules[i]? = some rules[i] := List.getElem?_eq_getElem hi
          apply Nests.modify (Q := Stacked (i :: stack))
          · rintro _ rfl
            exact hmarks.visit hi
          · apply Nests.begun
            apply (nests_valueBy (hreached i hi) hr ?_).bind
            · intro x
              apply Nests.modify
              · intro _ hvisited
                exact hvisited.finish hi hnot
              · exact Nests.pure fun _ => id
            · intro j hj
              apply ih i (h.push hnot (refers_iff.mpr ⟨_, hr, j, hj, rfl⟩))
              rw [List.length_cons]
              omega

/-- An evaluation nests its calls no deeper than the sequence has rules, and one more for a call
that is refused, and an error says what is so. -/
theorem evaluate_nests (rules : List Rule) (panel : Panel σ) (req : Request) (limit : Nat) (s : σ) :
  deepest rules panel req limit s ≤ rules.length + 1 ∧
    FailsOnly (IsTruthful rules panel req limit) ((evaluate rules panel req limit).run.run s).1
  := by
  have hrun := gaugeAll_run rules panel req limit s
  suffices hnests : ((gaugeAll rules panel req limit).run.run (s, 0)).2.2 ≤ rules.length + 1 ∧
      FailsOnly (IsTruthful rules panel req limit)
        ((gaugeAll rules panel req limit).run.run (s, 0)).1 by
    rwa [hrun] at hnests
  rw [gaugeAll, measureAll]
  rcases roots_cases rules with ⟨i, j, hfirst, hroots⟩ | ⟨i, hin, hleast, hroots⟩ |
    ⟨hin, hreached, hroots⟩
  · rw [hroots]
    exact ⟨Nat.zero_le _, hroots, rfl, hfirst⟩
  · rw [hroots]
    exact ⟨Nat.zero_le _, hroots, hin, hleast⟩
  · rw [hroots]
    have hrule : ∀ i ∈ (graph rules).sources,
        Nests (rules.length + 1) (IsTruthful rules panel req limit) (Stacked [])
          (measureAt (.gauge panel) rules req limit (limit + 1) 1 i i) (Stacked []) := by
      intro i hi
      exact nests_measureAt hin hreached i (.top ((mem_sources_iff i).mp hi)) (Nat.zero_add _)
    have hroots := Nests.isCongruence.allM_self hrule
    exact hroots.run' Stacked.start (Nat.zero_le _)

/-- What an error of an evaluation says is so, and values beyond 64 bits name no oracle. -/
theorem evaluate_truthful {s : σ} {e : RuleError}
    (h : ((evaluate rules panel req limit).run.run s).1 = .error e) :
  IsTruthful rules panel req limit e ∧
    ∀ v : Value, UInt64.size ≤ v.toNat → panel.named? v = none
  := by
  have hfails := (evaluate_nests rules panel req limit s).2
  rw [h] at hfails
  exact ⟨hfails, fun v => panel.named?_eq_none_of_le⟩

/-- The top-level rule asks for one of two rules that refer to each other. -/
def knot : List Rule :=
  [.not 1, .not 2, .not 1]

/-- The evaluation comes back to the rule that it has entered the cycle by, and names it. -/
theorem evaluate_truthful_knot :
  ((evaluate knot noOracles emptyRequest 64).run.run ()).1 = .error (.cycle 1) ∧
    Relation.TransGen (Refers knot) 1 1
  := by
  have hcycle : ((evaluate knot noOracles emptyRequest 64).run.run ()).1 = .error (.cycle 1) := by
    decide +kernel
  obtain ⟨⟨_, hpath⟩, _⟩ := evaluate_truthful hcycle
  exact ⟨hcycle, hpath⟩

end Rule

end DelegatedAccess
