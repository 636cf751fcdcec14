import DelegatedAccess.Proofs.Rule.Acceptance
import DelegatedAccess.Proofs.Rule.Evaluation
import Mathlib.Data.List.Sort

/-!
# Which rules are top-level

The top-level rules of a sequence are those to which no logic rule refers, also not the rule itself.
A cycle has no top-level rule of its own, so it can only be reached from a rule outside of it.

The main result of this module is that exactly the top-level rules are found, in order, when
operands are in range and all rules are reached, and that otherwise the first rule to blame is
named. Only the empty sequence has no top-level rule then, so no other can pass without a rule of it
that passes.
-/

namespace DelegatedAccess.Rule

variable {σ ν : Type} {rules : List Rule}

/-! ### The sources -/

/-- The sources of a graph are in order. -/
theorem pairwise_sources (rules : List Rule) :
  (graph rules).sources.Pairwise (· < ·)
  := by
  rw [Graph.sources_eq]
  exact (List.pairwise_lt_finRange rules.length).filter _

/-- One list has these elements in order. -/
theorem eq_sources {is : List (Fin rules.length)} (horder : is.Pairwise (· < ·))
    (hmem : ∀ i, i ∈ is ↔ IsTop rules i) :
  is = (graph rules).sources
  := by
  apply horder.eq_of_mem_iff (pairwise_sources rules)
  intro i
  rw [hmem, mem_sources_iff]

/-! ### The answer -/

/-- What is said about the top-level rules of a sequence is so. -/
def IsFinding (rules : List Rule) : Except RuleError (List (Fin rules.length)) → Prop
  | .ok is =>
      (InRange rules ∧ ∀ i < rules.length, IsReached rules i) ∧
        is.Pairwise (· < ·) ∧ ∀ i, i ∈ is ↔ IsTop rules i
  | .error (.operandOutOfRange i j n) => n = rules.length ∧ FirstStray rules i j
  | .error (.unreachable i) =>
      InRange rules ∧ IsLeast {i | i < rules.length ∧ ¬ IsReached rules i} i
  | .error _ => False

/-- What is found is so. -/
theorem isFinding_roots (rules : List Rule) :
  IsFinding rules (roots rules)
  := by
  rcases roots_cases rules with ⟨i, j, hfirst, hroots⟩ | ⟨i, hin, hleast, hroots⟩ |
    ⟨hin, hreached, hroots⟩
  · rw [hroots]
    exact ⟨rfl, hfirst⟩
  · rw [hroots]
    exact ⟨hin, hleast⟩
  · rw [hroots]
    exact ⟨⟨hin, hreached⟩, pairwise_sources rules, mem_sources_iff⟩

/-- What is so is found. -/
theorem IsFinding.roots_eq {v : Except RuleError (List (Fin rules.length))}
    (h : IsFinding rules v) :
  roots rules = v
  := by
  unfold IsFinding at h
  rcases roots_cases rules with ⟨i, j, hfirst, hroots⟩ | ⟨i, hin, hleast, hroots⟩ |
    ⟨hin, hreached, hroots⟩
  · split at h
    next => exact absurd h.1.1 hfirst.not_inRange
    next =>
      obtain ⟨rfl, hfirst'⟩ := h
      obtain ⟨rfl, rfl⟩ := hfirst.unique hfirst'
      exact hroots
    next => exact absurd h.1 hfirst.not_inRange
    next => contradiction
  · split at h
    next => exact absurd (h.1.2 i hleast.1.1) hleast.1.2
    next => exact absurd hin h.2.not_inRange
    next =>
      obtain rfl := hleast.unique h.2
      exact hroots
    next => contradiction
  · split at h
    next =>
      obtain rfl := eq_sources h.2.1 h.2.2
      exact hroots
    next => exact absurd hin h.2.not_inRange
    next => exact absurd (hreached _ h.2.1.1) h.2.1.2
    next => contradiction

/-- What is found is what is so. -/
theorem roots_eq_iff (v : Except RuleError (List (Fin rules.length))) :
  roots rules = v ↔ IsFinding rules v
  := by
  constructor
  · rintro rfl
    exact isFinding_roots rules
  · exact IsFinding.roots_eq

/-- The top-level rules are found when operands are in range and all rules are reached. -/
theorem exists_roots_eq_ok_iff :
  (∃ is, roots rules = .ok is) ↔ InRange rules ∧ ∀ i < rules.length, IsReached rules i
  := by
  constructor
  · rintro ⟨is, h⟩
    exact ((roots_eq_iff _).mp h).1
  · intro h
    exact ⟨_, (roots_eq_iff _).mpr ⟨h, pairwise_sources rules, mem_sources_iff⟩⟩

/-- Only of the empty sequence no top-level rule is found. -/
theorem roots_eq_nil_iff :
  roots rules = .ok [] ↔ rules = []
  := by
  constructor
  · intro h
    obtain ⟨⟨_, hreached⟩, _, hmem⟩ := (roots_eq_iff _).mp h
    by_contra hne
    obtain ⟨i, hi, _⟩ := hreached 0 (List.length_pos_of_ne_nil hne)
    exact List.not_mem_nil ((hmem ⟨i, hi.1⟩).mpr hi)
  · rintro rfl
    rfl

/-! ### Passing -/

/-- Where all pass, the first one does. -/
theorem of_allM_cons {ι ε : Type} {p : ι → StateT ν (ExceptT ε (StateM σ)) Bool} {i : ι}
    {is : List ι} {v : ν} {s : σ} (h : ((((i :: is).allM p).run' v).run.run s).1 = .ok true) :
  ∃ w, (((p i).run v).run.run s).1 = .ok (true, w)
  := by
  rw [run'_run, List.allM, bind_run] at h
  rcases hp : ((p i).run v).run.run s with ⟨_ | ⟨x, w⟩, t⟩
  · rw [hp] at h
    contradiction
  · rw [hp] at h
    cases x with
    | true => exact ⟨w, rfl⟩
    | false => exact nomatch h

/-- A sequence that passes is empty or has a top-level rule that is asked for first and passes. -/
theorem of_evaluate_eq_true {panel : Panel σ} {req : Request} {limit : Nat} {s : σ}
    (h : ((evaluate rules panel req limit).run.run s).1 = .ok true) :
  rules = [] ∨ ∃ i, IsTop rules i ∧ ∃ marks,
    (((evalAt rules panel req limit (limit + 1) i i).run
      (Vector.replicate rules.length .pending)).run.run s).1 = .ok (true, marks)
  := by
  rw [evaluate] at h
  cases hroots : roots rules with
  | error e =>
      rw [hroots] at h
      contradiction
  | ok is =>
      rw [hroots] at h
      cases is with
      | nil => exact Or.inl (roots_eq_nil_iff.mp hroots)
      | cons i is =>
          right
          obtain ⟨_, _, hmem⟩ := (roots_eq_iff _).mp hroots
          have hfirst := of_allM_cons (p := fun i : Fin rules.length =>
            evalAt rules panel req limit (limit + 1) i i) h
          exact ⟨i, (hmem i).mp List.mem_cons_self, hfirst⟩

/-- The search from the top-level rules comes to an end however its steps are taken, and marks the
rules that are reached. The top-level rules are found exactly when all operands are rules of the
sequence and all rules are reached, and what is found is the list of them in order. With operands in
range, the error names the first rule that is not reached, if there is one, and otherwise it names
the first stray operand. Only of the empty sequence no top-level rule is found, and a sequence that
passes is empty or has a top-level rule that is asked for first and passes. -/
theorem roots_exact (rules : List Rule) (panel : Panel σ) (req : Request) (limit : Nat) (s : σ) :
  (graph rules).Settles (graph rules).sources ((graph rules).reachable (graph rules).sources) ∧
    (∀ j : Fin rules.length,
      ((graph rules).reachable (graph rules).sources).get j = true ↔ IsReached rules j) ∧
    ((∃ is, roots rules = .ok is) ↔ InRange rules ∧ ∀ i < rules.length, IsReached rules i) ∧
    (∀ is, roots rules = .ok is ↔
      (InRange rules ∧ ∀ i < rules.length, IsReached rules i) ∧
        is.Pairwise (· < ·) ∧ ∀ i, i ∈ is ↔ IsTop rules i) ∧
    (∀ i, roots rules = .error (.unreachable i) ↔
      InRange rules ∧ IsLeast {i | i < rules.length ∧ ¬ IsReached rules i} i) ∧
    ((∃ i, roots rules = .error (.unreachable i)) ↔
      InRange rules ∧ ∃ i < rules.length, ¬ IsReached rules i) ∧
    (∀ i j n, roots rules = .error (.operandOutOfRange i j n) ↔
      n = rules.length ∧ FirstStray rules i j) ∧
    (roots rules = .ok [] ↔ rules = []) ∧
    (((evaluate rules panel req limit).run.run s).1 = .ok true →
      rules = [] ∨ ∃ i, IsTop rules i ∧ ∃ marks,
        (((evalAt rules panel req limit (limit + 1) i i).run
          (Vector.replicate rules.length .pending)).run.run s).1 = .ok (true, marks))
  := by
  have hunreachable : ∀ i, roots rules = .error (.unreachable i) ↔
      InRange rules ∧ IsLeast {i | i < rules.length ∧ ¬ IsReached rules i} i :=
    fun i => roots_eq_iff (.error (.unreachable i))
  refine ⟨Graph.settles_reachable _ _, reachable_graph_iff, exists_roots_eq_ok_iff,
    fun is => roots_eq_iff (.ok is), hunreachable, ?_,
    fun i j n => roots_eq_iff (.error (.operandOutOfRange i j n)), roots_eq_nil_iff,
    of_evaluate_eq_true⟩
  simp only [hunreachable, exists_and_left]
  apply and_congr_right
  exact exists_isLeast_iff

/-- Rules on a cycle are reached from a rule outside of it, and a rule that refers to itself is not
top-level. -/
example :
  roots [.not 1, .not 2, .not 1] = .ok [0] ∧ roots [.always, .not 1] = .error (.unreachable 1)
  := by
  decide

end DelegatedAccess.Rule
