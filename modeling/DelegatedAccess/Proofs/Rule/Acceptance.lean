import DelegatedAccess.Proofs.Rule.Reachability
import DelegatedAccess.Proofs.Rule.Reference
import Mathlib.Order.Bounds.Defs

/-!
# Which sequences are well structured

The check for structure, compared with paths along operands. A logic rule refers to as many
of its three packed indices as its connective needs.

The main result of this module is that a sequence is accepted exactly when all operands are
rules of the sequence and no rule depends on itself, and that otherwise the error is the first
that applies: a stray operand, a rule out of reach, or a cycle. The first two name the first
rule to blame.
-/

namespace DelegatedAccess

/-- The number of operands of a connective. -/
def Connective.arity : Connective → Nat
  | .not => 1
  | .and => 2
  | .or => 2
  | .xor => 2
  | .ifElse => 3

namespace Rule

variable {rules : List Rule}

/-- The rule at an index is a logic rule with these operands, in order. -/
def HasOperands (rules : List Rule) (i : Nat) (js : List Nat) : Prop :=
  ∃ k a b c, Combines rules i k a b c ∧ js = [a, b, c].take k.arity

/-- The rule at an index has another index as an operand. -/
def Refers (rules : List Rule) (i j : Nat) : Prop :=
  ∃ js, HasOperands rules i js ∧ j ∈ js

/-- All operands are rules of the sequence. -/
def InRange (rules : List Rule) : Prop :=
  ∀ i j, Refers rules i j → j < rules.length

/-- No rule depends on itself. -/
def IsAcyclic (rules : List Rule) : Prop :=
  ∀ i, ¬ Relation.TransGen (Refers rules) i i

/-- No logic rule refers to the rule at an index. -/
def IsTop (rules : List Rule) (i : Nat) : Prop :=
  i < rules.length ∧ ∀ j, ¬ Refers rules j i

/-- Some top-level rule is the rule at an index or depends on it. -/
def IsReached (rules : List Rule) (j : Nat) : Prop :=
  ∃ i, IsTop rules i ∧ Relation.ReflTransGen (Refers rules) i j

/-- The first rule with an operand that is no rule of the sequence, and the first such
operand of it. -/
def FirstStray (rules : List Rule) (i j : Nat) : Prop :=
  (∀ i' < i, ∀ j', Refers rules i' j' → j' < rules.length) ∧
    ∃ js, HasOperands rules i js ∧ js.find? (fun j => decide (rules.length ≤ j)) = some j

/-! ### Operands -/

/-- A logic rule has one list of operands. -/
theorem HasOperands.unique {i : Nat} {js js' : List Nat} (h : HasOperands rules i js)
    (h' : HasOperands rules i js') :
  js = js'
  := by
  obtain ⟨k, a, b, c, hr, rfl⟩ := h
  obtain ⟨k', a', b', c', hr', rfl⟩ := h'
  obtain ⟨rfl, rfl, rfl, rfl⟩ := hr.unique hr'
  rfl

/-- The operands of a formula are the first of the three indices. -/
theorem operands_formula (k : Connective) (a b c : BitVec 32) :
  (k.formula a b c).operands.map BitVec.toNat = [a.toNat, b.toNat, c.toNat].take k.arity
  := by
  cases k <;> rfl

/-- A rule has the operands that its clause combines, and none if it is no logic rule. -/
theorem hasOperands_or {i : Nat} {r : Rule} (hr : rules[i]? = some r) :
  HasOperands rules i (r.operands.map BitVec.toNat) ∨
    r.operands = [] ∧ ∀ js, ¬ HasOperands rules i js
  := by
  by_cases hlogic : ∃ k, r.operator? = some (.connect k) ∧ r.selector = logicSelector
  · obtain ⟨k, hop, hselector⟩ := hlogic
    left
    refine ⟨k, _, _, _, ⟨r, hr, hop, hselector, rfl, rfl, rfl⟩, ?_⟩
    rw [← operands_formula, operands, clause, hop]
    dsimp only
    rw [if_pos hselector]
  · right
    constructor
    · rw [operands, clause]
      cases hop : r.operator? with
      | none => rfl
      | some op =>
          cases op with
          | compare c => by_cases hselector : r.selector = logicSelector <;> simp [hselector]
          | connect k =>
              have hselector : r.selector ≠ logicSelector := fun h => hlogic ⟨k, hop, h⟩
              dsimp only
              rw [if_neg hselector]
    · rintro js ⟨k, a, b, c, ⟨r', hr', hop, hselector, _⟩, _⟩
      obtain rfl := Option.some.inj (hr.symm.trans hr')
      exact hlogic ⟨k, hop, hselector⟩

/-- A rule refers to its operands. -/
theorem refers_iff {i j : Nat} :
  Refers rules i j ↔ ∃ r, rules[i]? = some r ∧ ∃ k ∈ r.operands, k.toNat = j
  := by
  constructor
  · rintro ⟨js, hjs, hj⟩
    have ⟨k, a, b, c, ⟨r, hr, _⟩, _⟩ := hjs
    use r, hr
    rcases hasOperands_or hr with h | ⟨_, hnone⟩
    · obtain rfl := hjs.unique h
      exact List.mem_map.mp hj
    · exact absurd hjs (hnone js)
  · rintro ⟨r, hr, k, hk, rfl⟩
    rcases hasOperands_or hr with h | ⟨hnil, _⟩
    · exact ⟨_, h, List.mem_map_of_mem hk⟩
    · rw [hnil] at hk
      contradiction

/-- Only rules of a sequence refer to any. -/
theorem Refers.lt {i j : Nat} (h : Refers rules i j) :
  i < rules.length
  := by
  obtain ⟨r, hr, _⟩ := refers_iff.mp h
  exact (List.getElem?_eq_some_iff.mp hr).1

/-! ### Paths -/

/-- The edges of the graph of a sequence lead to operands. -/
theorem adj_graph_iff (i j : Fin rules.length) :
  (graph rules).Adj i j ↔ Refers rules i j
  := by
  rw [Graph.Adj, mem_graph_iff, refers_iff]
  constructor
  · intro h
    exact ⟨rules[i], List.getElem?_eq_getElem i.isLt, h⟩
  · rintro ⟨r, hr, h⟩
    obtain rfl := Option.some.inj ((List.getElem?_eq_getElem i.isLt).symm.trans hr)
    exact h

/-- The paths of the graph of a sequence lead along operands. -/
theorem transGen_graph_iff (i j : Fin rules.length) :
  Relation.TransGen (graph rules).Adj i j ↔ Relation.TransGen (Refers rules) i j
  := by
  constructor
  · apply Relation.TransGen.lift Fin.val
    intro i j
    exact (adj_graph_iff i j).mp
  · intro h
    obtain ⟨j, hj⟩ := j
    dsimp only at h
    induction h with
    | single h => exact .single ((adj_graph_iff _ _).mpr h)
    | @tail k _ _ hkj ih => exact (ih hkj.lt).tail ((adj_graph_iff ⟨k, hkj.lt⟩ _).mpr hkj)

/-- A path of any length leads along operands. -/
theorem reflTransGen_graph_iff (i j : Fin rules.length) :
  Relation.ReflTransGen (graph rules).Adj i j ↔ Relation.ReflTransGen (Refers rules) i j
  := by
  rw [Relation.reflTransGen_iff_eq_or_transGen, Relation.reflTransGen_iff_eq_or_transGen,
    transGen_graph_iff, Fin.val_inj]

/-- The graph of a sequence has no cycles when no rule depends on itself. -/
theorem isAcyclic_graph_iff :
  (graph rules).IsAcyclic ↔ IsAcyclic rules
  := by
  constructor
  · intro h i hi
    have hlt : i < rules.length := by
      obtain ⟨j, hij, _⟩ := Relation.TransGen.head'_iff.mp hi
      exact hij.lt
    apply h ⟨i, hlt⟩
    rw [transGen_graph_iff]
    exact hi
  · intro h i hi
    rw [transGen_graph_iff] at hi
    apply h i hi

/-- The sources of the graph of a sequence are its top-level rules. -/
theorem mem_sources_iff (i : Fin rules.length) :
  i ∈ (graph rules).sources ↔ IsTop rules i
  := by
  rw [Graph.sources_eq, List.mem_filter, decide_eq_true_eq]
  constructor
  · rintro ⟨_, hnot⟩
    refine ⟨i.isLt, ?_⟩
    intro j hj
    apply hnot ⟨j, hj.lt⟩
    exact (adj_graph_iff ⟨j, hj.lt⟩ i).mpr hj
  · rintro ⟨_, hnot⟩
    refine ⟨List.mem_finRange i, ?_⟩
    intro u hu
    apply hnot u
    exact (adj_graph_iff u i).mp hu

/-- The search from the top-level rules marks those that are reached. -/
theorem reachable_graph_iff (j : Fin rules.length) :
  ((graph rules).reachable (graph rules).sources).get j = true ↔ IsReached rules j
  := by
  rw [Graph.reachable_iff]
  constructor
  · rintro ⟨i, hi, hij⟩
    exact ⟨i, (mem_sources_iff i).mp hi, (reflTransGen_graph_iff i j).mp hij⟩
  · rintro ⟨i, hi, hij⟩
    use ⟨i, hi.1⟩
    constructor
    · exact (mem_sources_iff ⟨i, hi.1⟩).mpr hi
    · exact (reflTransGen_graph_iff ⟨i, hi.1⟩ j).mpr hij

/-- Every rule of a sequence without cycles is reached. -/
theorem IsAcyclic.isReached (h : IsAcyclic rules) {i : Nat} (hi : i < rules.length) :
  IsReached rules i
  := by
  obtain ⟨k, hk, hki⟩ := (isAcyclic_graph_iff.mpr h).exists_source ⟨i, hi⟩
  exact ⟨k, (mem_sources_iff k).mp hk, (reflTransGen_graph_iff k ⟨i, hi⟩).mp hki⟩

/-! ### Stray operands -/

/-- A stray operand is an operand that is no rule of the sequence. -/
theorem FirstStray.refers {i j : Nat} (h : FirstStray rules i j) :
  Refers rules i j ∧ rules.length ≤ j
  := by
  obtain ⟨_, js, hjs, hj⟩ := h
  constructor
  · exact ⟨js, hjs, List.mem_of_find?_eq_some hj⟩
  · simpa using List.find?_some hj

/-- There is one first stray operand. -/
theorem FirstStray.unique {i j i' j' : Nat} (h : FirstStray rules i j)
    (h' : FirstStray rules i' j') :
  i = i' ∧ j = j'
  := by
  obtain ⟨hrefers, hstray⟩ := h.refers
  obtain ⟨hrefers', hstray'⟩ := h'.refers
  rcases Nat.lt_trichotomy i i' with hlt | rfl | hlt
  · have hin := h'.1 i hlt j hrefers
    omega
  · obtain ⟨_, js, hjs, hj⟩ := h
    obtain ⟨_, js', hjs', hj'⟩ := h'
    obtain rfl := hjs.unique hjs'
    exact ⟨rfl, Option.some.inj (hj.symm.trans hj')⟩
  · have hin := h.1 i' hlt j' hrefers'
    omega

/-- With a stray operand, not all are in range. -/
theorem FirstStray.not_inRange {i j : Nat} (h : FirstStray rules i j) :
  ¬ InRange rules
  := by
  obtain ⟨hrefers, hstray⟩ := h.refers
  intro hin
  exact Nat.not_lt_of_le hstray (hin i j hrefers)

/-- Operands are in range exactly when none is reported. -/
theorem strayOperand?_eq_none_iff :
  strayOperand? rules = none ↔ InRange rules
  := by
  constructor
  · intro h i j hij
    obtain ⟨r, hr, k, hk, rfl⟩ := refers_iff.mp hij
    apply lt_of_strayOperand? h (List.mem_of_getElem? hr) hk
  · intro h
    apply List.findSome?_eq_none_iff.mpr
    rintro ⟨r, i⟩ hr
    have hr := List.mk_mem_zipIdx_iff_getElem?.mp hr
    apply Option.map_eq_none_iff.mpr
    apply List.find?_eq_none.mpr
    intro j hj
    have hlt := h i j.toNat (refers_iff.mpr ⟨r, hr, j, hj, rfl⟩)
    simpa using hlt

/-- The operand that is reported is the first stray one. -/
theorem firstStray_of_strayOperand? {e : RuleError} (h : strayOperand? rules = some e) :
  ∃ i j, FirstStray rules i j ∧ e = .operandOutOfRange i j rules.length
  := by
  obtain ⟨before, ⟨r, i⟩, after, hsplit, hfind, hbefore⟩ := List.findSome?_eq_some_iff.mp h
  obtain ⟨j, hj, rfl⟩ := Option.map_eq_some_iff.mp hfind
  have hat : rules.zipIdx[before.length]? = some (r, i) := by
    rw [hsplit, List.getElem?_append_right (Nat.le_refl _), Nat.sub_self]
    rfl
  rw [List.getElem?_zipIdx, Nat.zero_add] at hat
  obtain ⟨r', hr, heq⟩ := Option.map_eq_some_iff.mp hat
  obtain ⟨rfl, rfl⟩ := Prod.mk.inj heq
  refine ⟨before.length, j.toNat, ⟨?_, r'.operands.map BitVec.toNat, ?_, ?_⟩, rfl⟩
  · intro k hk j' hj'
    obtain ⟨r, hr', b, hb, rfl⟩ := refers_iff.mp hj'
    have hmem : (r, k) ∈ before := by
      apply List.mem_of_getElem? (i := k)
      rw [← List.getElem?_append_left hk, ← hsplit, List.getElem?_zipIdx, Nat.zero_add, hr']
      rfl
    have hnone := List.find?_eq_none.mp (Option.map_eq_none_iff.mp (hbefore _ hmem)) b hb
    simpa using hnone
  · rcases hasOperands_or hr with hoperands | ⟨hnil, _⟩
    · exact hoperands
    · rw [hnil] at hj
      contradiction
  · rw [List.find?_map]
    change (r'.operands.find? fun j => decide (rules.length ≤ j.toNat)).map BitVec.toNat = _
    rw [hj]
    rfl

/-! ### The verdict -/

/-- What the check says about a sequence is so. -/
def IsVerdict (rules : List Rule) : Except RuleError Unit → Prop
  | .ok () => InRange rules ∧ IsAcyclic rules
  | .error (.operandOutOfRange i j n) => n = rules.length ∧ FirstStray rules i j
  | .error (.unreachable i) =>
      InRange rules ∧ IsLeast {i | i < rules.length ∧ ¬ IsReached rules i} i
  | .error (.cycle _) =>
      InRange rules ∧ (∀ i < rules.length, IsReached rules i) ∧ ¬ IsAcyclic rules
  | .error _ => False

/-- The top-level rules are found when operands are in range and all rules are reached, and
otherwise the error is the first that applies. -/
theorem roots_cases (rules : List Rule) :
  (∃ i j, FirstStray rules i j ∧
      roots rules = .error (.operandOutOfRange i j rules.length)) ∨
    (∃ i, InRange rules ∧ IsLeast {i | i < rules.length ∧ ¬ IsReached rules i} i ∧
      roots rules = .error (.unreachable i)) ∨
    InRange rules ∧ (∀ i < rules.length, IsReached rules i) ∧
      roots rules = .ok (graph rules).sources
  := by
  cases hstray : strayOperand? rules with
  | some e =>
      left
      obtain ⟨i, j, hfirst, rfl⟩ := firstStray_of_strayOperand? hstray
      refine ⟨i, j, hfirst, ?_⟩
      rw [roots, hstray]
  | none =>
      right
      have hin := strayOperand?_eq_none_iff.mp hstray
      have hget : ∀ i : Fin rules.length,
          (!((graph rules).reachable (graph rules).sources)[i]) = true ↔ ¬ IsReached rules i := by
        intro i
        rw [← reachable_graph_iff, Bool.not_eq_true']
        exact Bool.not_eq_true _ ▸ Iff.rfl
      rw [roots, hstray]
      dsimp only
      split
      next i hfind =>
        left
        obtain ⟨hi, k, hk, rfl, hbefore⟩ := List.find?_eq_some_iff_getElem.mp hfind
        refine ⟨_, hin, ⟨⟨Fin.isLt _, (hget _).mp hi⟩, ?_⟩, rfl⟩
        rintro i' ⟨hlt', hi'⟩
        rw [List.getElem_finRange]
        by_contra hlt
        have hmarked := hbefore i' (by simpa using hlt)
        rw [List.getElem_finRange, (hget _).mpr hi'] at hmarked
        contradiction
      next hfind =>
        right
        refine ⟨hin, ?_, rfl⟩
        intro i hi
        by_contra hnot
        exact List.find?_eq_none.mp hfind ⟨i, hi⟩ (List.mem_finRange _) ((hget ⟨i, hi⟩).mpr hnot)

/-- Where the top-level rules are found, operands are in range and all rules are reached. -/
theorem of_roots {is : List (Fin rules.length)} (h : roots rules = .ok is) :
  InRange rules ∧ (∀ i < rules.length, IsReached rules i) ∧ is = (graph rules).sources
  := by
  rcases roots_cases rules with ⟨_, _, _, hroots⟩ | ⟨_, _, _, hroots⟩ | ⟨hin, hreached, hroots⟩
  · exact nomatch h.symm.trans hroots
  · exact nomatch h.symm.trans hroots
  · exact ⟨hin, hreached, Except.ok.inj (h.symm.trans hroots)⟩

/-- A sequence that is rejected for a cycle passes the checks for stray operands and for rules out
of reach. One that is rejected for anything else fails them. -/
theorem roots_of_checkStructure {e : RuleError} (h : checkStructure rules = .error e) :
  (∃ i, e = .cycle i) ∧ roots rules = .ok (graph rules).sources ∨
    (∀ i, e ≠ .cycle i) ∧ roots rules = .error e
  := by
  cases hroots : roots rules with
  | error e' =>
      obtain rfl := Except.error.inj ((checkStructure_of_error hroots).symm.trans h)
      refine .inr ⟨?_, rfl⟩
      rintro i rfl
      rcases roots_cases rules with ⟨_, _, _, h⟩ | ⟨_, _, _, h⟩ | ⟨_, _, h⟩
      · exact nomatch hroots.symm.trans h
      · exact nomatch hroots.symm.trans h
      · exact nomatch hroots.symm.trans h
  | ok is =>
      rw [checkStructure_of_ok hroots] at h
      split at h
      · obtain rfl := Except.error.inj h
        obtain ⟨_, _, rfl⟩ := of_roots hroots
        exact .inl ⟨⟨_, rfl⟩, rfl⟩
      · contradiction

/-- At most one verdict is so, except that any rule may be named as part of a cycle. -/
theorem IsVerdict.unique {v w : Except RuleError Unit} (hv : IsVerdict rules v)
    (hw : IsVerdict rules w) :
  v = w ∨ ∃ i j, v = .error (.cycle i) ∧ w = .error (.cycle j)
  := by
  have hreached : IsAcyclic rules → ∀ i < rules.length, IsReached rules i :=
    fun h i hi => h.isReached hi
  unfold IsVerdict at hv hw
  split at hv <;> split at hw
  all_goals
    grind [FirstStray.not_inRange, FirstStray.unique, IsLeast.unique, IsLeast]

/-- The check is right about a sequence. -/
theorem isVerdict_checkStructure (rules : List Rule) :
  IsVerdict rules (checkStructure rules)
  := by
  rcases roots_cases rules with ⟨i, j, hfirst, hroots⟩ | ⟨i, hin, hleast, hroots⟩ |
    ⟨hin, hreached, hroots⟩
  · rw [checkStructure_of_error hroots]
    exact ⟨rfl, hfirst⟩
  · rw [checkStructure_of_error hroots]
    exact ⟨hin, hleast⟩
  · rw [checkStructure_of_ok hroots]
    split
    next hlt =>
      refine ⟨hin, hreached, ?_⟩
      rw [← isAcyclic_graph_iff, ← Graph.removed_iff_isAcyclic]
      exact Nat.not_le_of_lt hlt
    next hle =>
      refine ⟨hin, ?_⟩
      rw [← isAcyclic_graph_iff, ← Graph.removed_iff_isAcyclic]
      exact Nat.le_of_not_lt hle

/-- The check says what is so about a sequence. A cycle may be told of in several ways. -/
theorem checkStructure_eq_iff {v : Except RuleError Unit} (hv : ∀ i, v ≠ .error (.cycle i)) :
  checkStructure rules = v ↔ IsVerdict rules v
  := by
  have hverdict := isVerdict_checkStructure rules
  constructor
  · rintro rfl
    exact hverdict
  · intro h
    rcases hverdict.unique h with heq | ⟨_, i, _, hi⟩
    · exact heq
    · exact absurd hi (hv i)

/-- The check tells of a cycle exactly when there is one, and nothing else is wrong. -/
theorem checkStructure_cycle_iff :
  (∃ i, checkStructure rules = .error (.cycle i)) ↔
    InRange rules ∧ (∀ i < rules.length, IsReached rules i) ∧ ¬ IsAcyclic rules
  := by
  have hverdict := isVerdict_checkStructure rules
  constructor
  · rintro ⟨i, h⟩
    rw [h] at hverdict
    exact hverdict
  · intro h
    rcases hverdict.unique (w := .error (.cycle 0)) h with heq | ⟨i, _, heq, _⟩
    · exact ⟨0, heq⟩
    · exact ⟨i, heq⟩

/-- Unless all operands are in range, one is the first stray one. -/
theorem exists_firstStray_iff :
  (∃ i j, FirstStray rules i j) ↔ ¬ InRange rules
  := by
  constructor
  · rintro ⟨i, j, h⟩
    exact h.not_inRange
  · intro hnot
    rcases roots_cases rules with ⟨i, j, hfirst, _⟩ | ⟨_, hin, _⟩ | ⟨hin, _⟩
    · exact ⟨i, j, hfirst⟩
    · contradiction
    · contradiction

/-- With operands in range, unless all rules are reached, one is the first that is not. -/
theorem exists_isLeast_iff (hin : InRange rules) :
  (∃ i, IsLeast {i | i < rules.length ∧ ¬ IsReached rules i} i) ↔
    ∃ i < rules.length, ¬ IsReached rules i
  := by
  constructor
  · rintro ⟨i, ⟨hi, hnot⟩, _⟩
    exact ⟨i, hi, hnot⟩
  · rintro ⟨k, hk, hnot⟩
    rcases roots_cases rules with ⟨_, _, hfirst, _⟩ | ⟨i, _, hleast, _⟩ | ⟨_, hall, _⟩
    · exact absurd hin hfirst.not_inRange
    · exact ⟨i, hleast⟩
    · exact absurd (hall k hk) hnot

/-- A sequence is accepted exactly when all operands are rules of the sequence and no rule
depends on itself, and then all its rules are reached. Otherwise, if some operand is no rule of
the sequence, the error names the first rule with such an operand, and the first such operand
of it. If operands are in range and some rule is out of reach, the error names the first such
rule. If all rules are reached, the error is a cycle. There are no other errors. -/
theorem checkStructure_exact (rules : List Rule) :
  (checkStructure rules = .ok () ↔ InRange rules ∧ IsAcyclic rules) ∧
    (IsAcyclic rules → ∀ i < rules.length, IsReached rules i) ∧
    (∀ i j n, checkStructure rules = .error (.operandOutOfRange i j n) ↔
      n = rules.length ∧ FirstStray rules i j) ∧
    ((∃ i j n, checkStructure rules = .error (.operandOutOfRange i j n)) ↔ ¬ InRange rules) ∧
    (∀ i, checkStructure rules = .error (.unreachable i) ↔
      InRange rules ∧ IsLeast {i | i < rules.length ∧ ¬ IsReached rules i} i) ∧
    ((∃ i, checkStructure rules = .error (.unreachable i)) ↔
      InRange rules ∧ ∃ i < rules.length, ¬ IsReached rules i) ∧
    ((∃ i, checkStructure rules = .error (.cycle i)) ↔
      InRange rules ∧ (∀ i < rules.length, IsReached rules i) ∧ ¬ IsAcyclic rules)
  := by
  have hstray : ∀ i j n, checkStructure rules = .error (.operandOutOfRange i j n) ↔
      n = rules.length ∧ FirstStray rules i j := by
    intro i j n
    apply checkStructure_eq_iff
    exact fun _ => nofun
  have hunreachable : ∀ i, checkStructure rules = .error (.unreachable i) ↔
      InRange rules ∧ IsLeast {i | i < rules.length ∧ ¬ IsReached rules i} i := by
    intro i
    apply checkStructure_eq_iff
    exact fun _ => nofun
  refine ⟨checkStructure_eq_iff fun _ => nofun, fun h i hi => h.isReached hi, hstray, ?_,
    hunreachable, ?_, checkStructure_cycle_iff⟩
  · simp only [hstray, exists_eq_left, exists_firstStray_iff]
  · simp only [hunreachable, exists_and_left]
    apply and_congr_right
    exact exists_isLeast_iff

end Rule

end DelegatedAccess
