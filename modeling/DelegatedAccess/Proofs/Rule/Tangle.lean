import DelegatedAccess.Proofs.Rule.Acceptance

/-!
# Which rule is blamed for a cycle

The check for structure removes, over and over, a rule to which no remaining rule refers, and
names the first rule that is left. The rules that are left are those on a cycle and all those
on which one of these depends.

The main result of this module is that the rule named is the first of them. It need not be on a
cycle: it may be a plain test that a rule on a cycle refers to.
-/

namespace DelegatedAccess.Rule

variable {rules : List Rule}

/-- The rule at an index is on a cycle, or a rule on a cycle depends on it. -/
def IsTangled (rules : List Rule) (i : Nat) : Prop :=
  ∃ j, Relation.TransGen (Refers rules) j j ∧ Relation.ReflTransGen (Refers rules) j i

/-- The rules to which edges are left in the end are those that are tangled. -/
theorem indegree_sweep_graph_pos_iff (i : Fin rules.length) :
  0 < (graph rules).sweep.indegree.get i ↔ IsTangled rules i
  := by
  rw [Graph.indegree_sweep_pos_iff, Graph.not_mem_removed_iff]
  constructor
  · rintro ⟨j, hcycle, hji⟩
    exact ⟨j, (transGen_graph_iff j j).mp hcycle, (reflTransGen_graph_iff j i).mp hji⟩
  · rintro ⟨j, hcycle, hji⟩
    have hlt : j < rules.length := by
      obtain ⟨k, hjk, _⟩ := Relation.TransGen.head'_iff.mp hcycle
      exact hjk.lt
    exact ⟨⟨j, hlt⟩, (transGen_graph_iff _ _).mpr hcycle, (reflTransGen_graph_iff _ i).mpr hji⟩

/-- What is tangled is a rule of the sequence, when operands are in range. -/
theorem IsTangled.lt (hin : InRange rules) {i : Nat} (h : IsTangled rules i) :
  i < rules.length
  := by
  obtain ⟨j, hcycle, hji⟩ := h
  have hpath : Relation.TransGen (Refers rules) j i := hcycle.trans_left hji
  obtain ⟨k, _, hki⟩ := Relation.TransGen.tail'_iff.mp hpath
  exact hin k i hki

/-- A sequence with a cycle has a tangled rule, and only then. -/
theorem exists_isTangled_iff :
  (∃ i, IsTangled rules i) ↔ ¬ IsAcyclic rules
  := by
  rw [IsAcyclic, not_forall_not]
  constructor
  · rintro ⟨_, j, hcycle, _⟩
    exact ⟨j, hcycle⟩
  · rintro ⟨i, hcycle⟩
    exact ⟨i, i, hcycle, .refl⟩

/-- With a cycle, the first rule to which edges are left in the end is the first tangled one. -/
theorem isLeast_firstStuck (hin : InRange rules) (h : ¬ IsAcyclic rules) :
  IsLeast {i | IsTangled rules i} (firstStuck rules)
  := by
  have hget : ∀ i : Fin rules.length,
      decide (0 < (graph rules).sweep.indegree.get i) = true ↔ IsTangled rules i := by
    intro i
    rw [decide_eq_true_iff]
    apply indegree_sweep_graph_pos_iff
  rw [firstStuck]
  cases hfind : (List.finRange rules.length).find? fun i =>
      0 < (graph rules).sweep.indegree.get i with
  | none =>
      obtain ⟨i, hi⟩ := exists_isTangled_iff.mpr h
      have hnot := List.find?_eq_none.mp hfind ⟨i, hi.lt hin⟩ (List.mem_finRange _)
      exact absurd ((hget ⟨i, hi.lt hin⟩).mpr hi) hnot
  | some i =>
      obtain ⟨hi, k, hk, rfl, hbefore⟩ := List.find?_eq_some_iff_getElem.mp hfind
      refine ⟨(hget _).mp hi, ?_⟩
      intro j hj
      rw [Option.map_some, Option.getD_some, List.getElem_finRange]
      by_contra hlt
      have hleft := hbefore j (by simpa using hlt)
      rw [List.getElem_finRange, (hget _).mpr (show IsTangled rules j from hj)] at hleft
      contradiction

/-- The check names a rule as part of a cycle exactly when operands are in range, all rules are
reached, and the rule is the first that is on a cycle or that a rule on a cycle depends on. -/
theorem checkStructure_eq_cycle_iff (rules : List Rule) (i : Nat) :
  checkStructure rules = .error (.cycle i) ↔
    InRange rules ∧ (∀ j < rules.length, IsReached rules j) ∧
      IsLeast {j | IsTangled rules j} i
  := by
  have hcyclic : ∀ k, checkStructure rules = .error (.cycle k) →
      InRange rules ∧ (∀ j < rules.length, IsReached rules j) ∧
        IsLeast {j | IsTangled rules j} k := by
    intro k h
    obtain ⟨hin, hreached, hnot⟩ := checkStructure_cycle_iff.mp ⟨k, h⟩
    have hroots : roots rules = .ok (graph rules).sources := by
      rcases roots_of_checkStructure h with ⟨_, hroots⟩ | ⟨hne, _⟩
      · exact hroots
      · exact absurd rfl (hne k)
    rw [checkStructure_of_ok hroots] at h
    split at h
    · obtain rfl := RuleError.cycle.inj (Except.error.inj h)
      exact ⟨hin, hreached, isLeast_firstStuck hin hnot⟩
    · contradiction
  constructor
  · apply hcyclic
  · rintro ⟨hin, hreached, hleast⟩
    have hnot : ¬ IsAcyclic rules := exists_isTangled_iff.mp ⟨i, hleast.1⟩
    obtain ⟨k, h⟩ := checkStructure_cycle_iff.mpr ⟨hin, hreached, hnot⟩
    obtain ⟨_, _, hleast'⟩ := hcyclic k h
    rw [h, hleast.unique hleast']

/-! ### An example -/

/-- A rule on a cycle refers to the second rule, which refers to none. -/
def bystander : List Rule :=
  [.not 2, .always, .and 2 1]

/-- The check names a rule as part of a cycle that refers to no rule at all. -/
theorem bystander_blamed :
  checkStructure bystander = .error (.cycle 1) ∧ (∀ j, ¬ Refers bystander 1 j) ∧
    ¬ ∀ (rules : List Rule) (i : Nat), checkStructure rules = .error (.cycle i) →
      Relation.TransGen (Refers rules) i i
  := by
  have hcheck : checkStructure bystander = .error (.cycle 1) := by decide +kernel
  have hnone : ∀ j, ¬ Refers bystander 1 j := by
    intro j hj
    obtain ⟨r, hr, k, hk, _⟩ := refers_iff.mp hj
    obtain rfl := Option.some.inj hr
    contradiction
  refine ⟨hcheck, hnone, ?_⟩
  intro hclaim
  obtain ⟨j, hj, _⟩ := Relation.TransGen.head'_iff.mp (hclaim bystander 1 hcheck)
  exact hnone j hj

end DelegatedAccess.Rule
