import DelegatedAccess.Rule.Structure
import Mathlib.Algebra.BigOperators.Fin
import Mathlib.Data.Fintype.Basic

/-!
# The dependency order of rules

A vertex is removed from a graph when all edges to it come from removed vertices. If all
vertices are removed in the end, then every edge leads to a vertex that is removed later, and
the number of vertices removed later is a rank that decreases along the edges.

The removal counts the edges that are left to each vertex. Between two steps the count of a
vertex is the number of edges to it from vertices that are not removed. While a vertex is
being removed the count also includes those of its edges that have not been taken away.
-/

namespace DelegatedAccess.Graph

variable {n : Nat}

/-! ### What is kept for each vertex -/

/-- What is put down for a vertex is found there. -/
theorem get_set_self {α : Type} (v : Vector α n) (i : Fin n) (x : α) :
  (v.set i x i.isLt).get i = x
  := Vector.getElem_set_self i.isLt

/-- What is put down for a vertex leaves the others. -/
theorem get_set_of_ne {α : Type} (v : Vector α n) {i j : Fin n} (h : i ≠ j) (x : α) :
  (v.set i x i.isLt).get j = v.get j
  := Vector.getElem_set_ne i.isLt j.isLt fun heq => h (Fin.ext heq)

/-- All vertices start with the same. -/
theorem get_replicate {α : Type} (x : α) (i : Fin n) :
  (Vector.replicate n x).get i = x
  := Vector.getElem_replicate i.isLt

/-! ### Counts of edges -/

/-- The number of edges to a vertex from vertices that are not among those removed. -/
def edgesLeft (g : Graph n) (removed : List (Fin n)) (j : Fin n) : Nat :=
  ∑ u ∈ removed.toFinsetᶜ, (g.get u).count j

/-- The edges that are left before a vertex is removed are its own and those left after. -/
theorem edgesLeft_eq_add (g : Graph n) {removed : List (Fin n)} {i : Fin n} (h : i ∉ removed)
    (j : Fin n) :
  g.edgesLeft removed j = g.edgesLeft (i :: removed) j + (g.get i).count j
  := by
  have hmem : i ∈ removed.toFinsetᶜ := by simpa using h
  rw [edgesLeft, edgesLeft, List.toFinset_cons, Finset.compl_insert, Nat.add_comm]
  exact (Finset.add_sum_erase _ (fun u => (g.get u).count j) hmem).symm

/-- No edge is left to a vertex when all edges to it come from removed vertices. -/
theorem mem_of_edgesLeft_eq_zero {g : Graph n} {removed : List (Fin n)} {j u : Fin n}
    (h : g.edgesLeft removed j = 0) (hu : j ∈ g.get u) :
  u ∈ removed
  := by
  by_contra hnot
  have hmem : u ∈ removed.toFinsetᶜ := by simpa using hnot
  have hcount := Finset.sum_eq_zero_iff.mp h u hmem
  apply List.count_eq_zero.mp hcount hu

/-- Counting edges one by one adds their number to every count. -/
theorem get_foldl_count (es : List (Fin n)) (v : Vector Nat n) (j : Fin n) :
  (es.foldl Sweep.count v).get j = v.get j + es.count j
  := by
  induction es generalizing v with
  | nil => rfl
  | cons e es ih =>
      rw [List.foldl_cons, ih, Sweep.count]
      by_cases h : e = j
      · subst h
        rw [get_set_self, List.count_cons_self, Nat.add_assoc, Nat.add_comm 1]
        rfl
      · rw [get_set_of_ne v h, List.count_cons_of_ne h]

/-- All edges are left at first. -/
theorem count_flatten (g : Graph n) (j : Fin n) :
  g.toList.flatten.count j = g.edgesLeft [] j
  := by
  have hmap : g.toList.map (List.count j) = List.ofFn fun u : Fin n => (g.get u).count j := by
    apply List.ext_getElem
    · simp
    · intro i h h'
      simp [Vector.get]
  rw [List.count_flatten, edgesLeft, List.toFinset_nil, Finset.compl_empty, hmap, List.sum_ofFn]

/-! ### The removal -/

/-- Vertices are removed in order when all edges to each come from those removed before. The
last one comes first. -/
def Ordered (g : Graph n) : List (Fin n) → Prop
  | [] => True
  | j :: removed => (∀ u, j ∈ g.get u → u ∈ removed) ∧ Ordered g removed

namespace Sweep

/-- What is true of a stage of the removal, when some edges of the vertex removed last are
still to be taken away. -/
structure Counted (g : Graph n) (s : Sweep n) (es : List (Fin n)) : Prop where
  /-- The edges to each vertex are counted. -/
  indegree : ∀ j, s.indegree.get j = g.edgesLeft s.removed j + es.count j
  /-- No edge is left to a vertex that is ready or removed. -/
  settled : ∀ j ∈ s.ready ++ s.removed, s.indegree.get j = 0
  /-- No vertex is ready or removed twice. -/
  nodup : (s.ready ++ s.removed).Nodup
  /-- Vertices are removed in order. -/
  ordered : g.Ordered s.removed

/-- At the first stage all edges are counted. -/
theorem Counted.start (g : Graph n) :
  Counted g (Sweep.start g) []
  where
  indegree j := by
    rw [Sweep.start, get_foldl_count, get_replicate, count_flatten, Nat.zero_add]
    rfl
  settled j hj := by
    rw [Sweep.start, List.append_nil] at hj
    have hready := List.mem_filter.mp (List.mem_reverse.mp hj)
    apply of_decide_eq_true hready.2
  nodup := by
    simpa [Sweep.start] using (List.nodup_finRange n).filter _
  ordered := trivial

/-- Taking an edge away leaves the others to be taken away. -/
theorem Counted.release {g : Graph n} {s : Sweep n} {j : Fin n} {es : List (Fin n)}
    (h : Counted g s (j :: es)) :
  Counted g (s.release j) es
  := by
  have hj : s.indegree.get j = g.edgesLeft s.removed j + es.count j + 1 := by
    rw [h.indegree j, List.count_cons_self, Nat.add_assoc]
  have hnot : j ∉ s.ready ++ s.removed := by
    intro hmem
    rw [h.settled j hmem] at hj
    contradiction
  have hother : ∀ i : Fin n, i ≠ j → (s.release j).indegree.get i = s.indegree.get i := by
    intro i hi
    apply get_set_of_ne s.indegree (Ne.symm hi)
  have hself : (s.release j).indegree.get j = s.indegree.get j - 1 :=
    get_set_self s.indegree j _
  constructor
  case indegree =>
    intro i
    by_cases hi : i = j
    · subst hi
      rw [hself, hj]
      rfl
    · rw [hother i hi, h.indegree i, List.count_cons_of_ne (Ne.symm hi)]
      rfl
  case settled =>
    intro i hi
    by_cases hij : i = j
    · subst hij
      rw [hself]
      by_contra hne
      have hready : (s.release i).ready = s.ready := if_neg hne
      rw [hready] at hi
      apply hnot hi
    · rw [hother i hij]
      apply h.settled i
      rw [Sweep.release] at hi
      dsimp only at hi
      split at hi
      · apply List.mem_of_ne_of_mem hij hi
      · exact hi
  case nodup =>
    rw [Sweep.release]
    dsimp only
    split
    · apply List.nodup_cons.mpr ⟨hnot, h.nodup⟩
    · apply h.nodup
  case ordered => apply h.ordered

/-- All edges can be taken away. -/
theorem Counted.releaseAll {g : Graph n} {s : Sweep n} {es : List (Fin n)}
    (h : Counted g s es) :
  Counted g (es.foldl Sweep.release s) []
  := by
  induction es generalizing s with
  | nil => exact h
  | cons j es ih => apply ih h.release

/-- A vertex that is ready can be removed, and the edges out of it are to be taken away then. -/
theorem Counted.remove {g : Graph n} {s : Sweep n} {i : Fin n} {ready : List (Fin n)}
    (h : Counted g s []) (hready : s.ready = i :: ready) :
  Counted g { s with ready, removed := i :: s.removed } (g.get i)
  := by
  have hi : i ∈ s.ready ++ s.removed := by simp [hready]
  have hnodup : (i :: (ready ++ s.removed)).Nodup := by
    have hnodup := h.nodup
    rwa [hready] at hnodup
  have hperm : (ready ++ i :: s.removed).Perm (i :: (ready ++ s.removed)) :=
    List.perm_middle
  have hnot : i ∉ s.removed := by
    intro hmem
    exact (List.nodup_cons.mp hnodup).1 (List.mem_append_right ready hmem)
  have hleft : g.edgesLeft s.removed i = 0 := by
    have hzero := h.settled i hi
    rw [h.indegree i] at hzero
    apply Nat.eq_zero_of_add_eq_zero_right hzero
  constructor
  case indegree =>
    intro j
    have hj := h.indegree j
    rw [edgesLeft_eq_add g hnot j] at hj
    exact hj
  case settled =>
    intro j hj
    apply h.settled j
    rw [hready]
    apply hperm.subset hj
  case nodup => apply hperm.nodup_iff.mpr hnodup
  case ordered =>
    constructor
    · intro u hu
      apply mem_of_edgesLeft_eq_zero hleft hu
    · apply h.ordered

/-- A step removes a vertex to which no edge is left. -/
theorem Counted.step {g : Graph n} {s : Sweep n} (h : Counted g s []) :
  Counted g (s.step g) []
  := by
  rw [Sweep.step]
  cases hready : s.ready with
  | nil => exact h
  | cons i ready => exact (h.remove hready).releaseAll

/-- Any number of steps leave the edges counted. -/
theorem Counted.run {g : Graph n} {s : Sweep n} (h : Counted g s []) (steps : Nat) :
  Counted g (run g steps s) []
  := by
  induction steps generalizing s with
  | zero => exact h
  | succ steps ih => apply ih h.step

/-- No more vertices are ready or removed than there are. -/
theorem Counted.length_le {g : Graph n} {s : Sweep n} {es : List (Fin n)} (h : Counted g s es) :
  s.ready.length + s.removed.length ≤ n
  := by
  rw [← List.length_append]
  simpa using h.nodup.length_le_card

end Sweep

/-! ### Ranks -/

/-- Edges to vertices removed in order come from vertices removed before. -/
theorem Ordered.mem {g : Graph n} {removed : List (Fin n)} (h : g.Ordered removed)
    {j u : Fin n} (hj : j ∈ removed) (hu : j ∈ g.get u) :
  u ∈ removed
  := by
  induction removed with
  | nil => contradiction
  | cons i removed ih =>
      obtain ⟨hi, h⟩ := h
      rcases List.mem_cons.mp hj with rfl | hj
      · apply List.mem_cons_of_mem _ (hi u hu)
      · apply List.mem_cons_of_mem _ (ih h hj)

/-- An edge leads to a vertex that is removed later, which comes earlier in the list. -/
theorem Ordered.idxOf_lt {g : Graph n} {removed : List (Fin n)} (h : g.Ordered removed)
    (hnodup : removed.Nodup) {j u : Fin n} (hj : j ∈ removed) (hu : j ∈ g.get u) :
  removed.idxOf j < removed.idxOf u
  := by
  induction removed with
  | nil => contradiction
  | cons i removed ih =>
      obtain ⟨hi, h⟩ := h
      obtain ⟨hnot, hnodup⟩ := List.nodup_cons.mp hnodup
      by_cases hij : j = i
      · subst hij
        have hmem := hi u hu
        have hne : j ≠ u := by
          rintro rfl
          apply hnot hmem
        rw [List.idxOf_cons_self, List.idxOf_cons_ne _ hne]
        apply Nat.succ_pos
      · have hj := List.mem_of_ne_of_mem hij hj
        have hne : i ≠ u := by
          rintro rfl
          apply hnot (h.mem hj hu)
        rw [List.idxOf_cons_ne _ (Ne.symm hij), List.idxOf_cons_ne _ hne]
        apply Nat.succ_lt_succ (ih h hnodup hj)

/-- If all vertices are removed in the end, then they have ranks that decrease along the
edges. -/
theorem exists_rank {g : Graph n} (h : n ≤ g.sweep.removed.length) :
  ∃ rank : Fin n → Nat, (∀ i, rank i < n) ∧ ∀ i, ∀ j ∈ g.get i, rank j < rank i
  := by
  have hcounted : Sweep.Counted g g.sweep [] := (Sweep.Counted.start g).run n
  have hnodup : g.sweep.removed.Nodup := hcounted.nodup.of_append_right
  have hlength : g.sweep.removed.length ≤ n :=
    Nat.le_trans (Nat.le_add_left _ _) hcounted.length_le
  have hall : ∀ i, i ∈ g.sweep.removed := by
    intro i
    have hcard : g.sweep.removed.toFinset.card = Fintype.card (Fin n) := by
      rw [List.toFinset_card_of_nodup hnodup, Fintype.card_fin]
      omega
    rw [← List.mem_toFinset, (Finset.card_eq_iff_eq_univ _).mp hcard]
    apply Finset.mem_univ
  use fun i => g.sweep.removed.idxOf i
  constructor
  · intro i
    apply Nat.lt_of_lt_of_le (List.idxOf_lt_length_iff.mpr (hall i)) hlength
  · intro i j hj
    apply hcounted.ordered.idxOf_lt hnodup (hall j) hj

/-! ### Sources -/

/-- A vertex is marked when it is marked already or among those to be marked. -/
theorem get_mark (vs : List (Fin n)) (marks : Vector Bool n) (j : Fin n) :
  (mark vs marks).get j = (marks.get j || decide (j ∈ vs))
  := by
  rw [mark]
  induction vs generalizing marks with
  | nil => simp
  | cons i vs ih =>
      rw [List.foldl_cons, ih]
      by_cases h : i = j
      · subst h
        rw [get_set_self]
        simp
      · rw [get_set_of_ne marks h]
        simp [Ne.symm h]

/-- The sources are the vertices to which no edge leads. -/
theorem sources_eq (g : Graph n) :
  g.sources = (List.finRange n).filter fun j => decide (∀ u : Fin n, j ∉ g.get u)
  := by
  rw [sources]
  apply List.filter_congr
  intro j _
  have hmem : j ∈ g.toList.flatten ↔ ∃ u : Fin n, j ∈ g.get u := by
    rw [List.mem_flatten]
    constructor
    · rintro ⟨es, hes, hj⟩
      obtain ⟨u, hu, rfl⟩ := List.getElem_of_mem hes
      exact ⟨⟨u, by simpa using hu⟩, by simpa [Vector.get] using hj⟩
    · rintro ⟨u, hu⟩
      exact ⟨g.get u, by simp [Vector.get], hu⟩
  change (!(mark g.toList.flatten (Vector.replicate n false)).get j) = _
  rw [get_mark, get_replicate, Bool.false_or, ← decide_not]
  apply decide_eq_decide.mpr
  rw [hmem, not_exists]

end DelegatedAccess.Graph

namespace DelegatedAccess.Rule

/-! ### Rule sequences -/

/-- The edges out of a rule lead to its operands, so far as these are rules of the sequence. -/
theorem get_graph (rules : List Rule) (i : Fin rules.length) :
  (graph rules).get i = targets rules.length (rules.get i)
  := List.getElem_map (targets rules.length)

/-- An edge leads from a rule to each of its operands. -/
theorem mem_graph_iff (rules : List Rule) (i j : Fin rules.length) :
  j ∈ (graph rules).get i ↔ ∃ k ∈ (rules.get i).operands, k.toNat = j.val
  := by
  rw [get_graph, targets, List.mem_filterMap]
  constructor
  · rintro ⟨k, hk, hj⟩
    split at hj
    · exact ⟨k, hk, congrArg Fin.val (Option.some.inj hj)⟩
    · contradiction
  · rintro ⟨k, hk, hj⟩
    have hlt : k.toNat < rules.length := hj ▸ j.isLt
    use k, hk
    rw [dif_pos hlt]
    congr 1
    apply Fin.ext hj

/-- When no operand is astray, all operands are rules of the sequence. -/
theorem lt_of_strayOperand? {rules : List Rule} (h : strayOperand? rules = none) {r : Rule}
    (hr : r ∈ rules) {j : BitVec 32} (hj : j ∈ r.operands) :
  j.toNat < rules.length
  := by
  obtain ⟨i, hi, rfl⟩ := List.getElem_of_mem hr
  have hfind := List.findSome?_eq_none_iff.mp h (rules[i], i)
    (List.mk_mem_zipIdx_iff_getElem?.mpr (List.getElem?_eq_getElem hi))
  have hnot := List.find?_eq_none.mp (Option.map_eq_none_iff.mp hfind) j hj
  simpa using hnot

/-- Each operand of a rule of an accepted sequence is a rule of the sequence, the rank of
which is below that of the rule. All ranks are below the number of rules. -/
def RankedBy (rules : List Rule) (rank : Nat → Nat) : Prop :=
  (∀ i < rules.length, rank i < rules.length) ∧
    ∀ i r, rules[i]? = some r → ∀ j ∈ r.operands,
      j.toNat < rules.length ∧ rank j.toNat < rank i

/-- The first rule to which edges are left in the end. -/
def firstStuck (rules : List Rule) : Nat :=
  let stuck := (List.finRange rules.length).find? fun i => 0 < (graph rules).sweep.indegree.get i
  (stuck.map Fin.val).getD 0

/-- Where no top-level rules are found, the check says why. -/
theorem checkStructure_of_error {rules : List Rule} {e : RuleError}
    (h : roots rules = .error e) :
  checkStructure rules = .error e
  := by
  rw [checkStructure, h]
  rfl

/-- Where the top-level rules are found, the check looks for a cycle. -/
theorem checkStructure_of_ok {rules : List Rule} {is : List (Fin rules.length)}
    (h : roots rules = .ok is) :
  checkStructure rules =
    if (graph rules).sweep.removed.length < rules.length then .error (.cycle (firstStuck rules))
    else .ok ()
  := by
  rw [checkStructure, h]
  rfl

/-- What is known of a sequence that is accepted: its top-level rules are the sources of its
graph, and its rules can be ranked. -/
theorem of_checkStructure {rules : List Rule} (h : checkStructure rules = .ok ()) :
  roots rules = .ok (graph rules).sources ∧ ∃ rank, RankedBy rules rank
  := by
  have hsplit : ∃ is, roots rules = .ok is ∧
      rules.length ≤ (graph rules).sweep.removed.length := by
    cases hroots : roots rules with
    | error e =>
        rw [checkStructure_of_error hroots] at h
        contradiction
    | ok is =>
        use is, rfl
        by_contra hlt
        rw [checkStructure_of_ok hroots, if_pos (Nat.lt_of_not_le hlt)] at h
        contradiction
  obtain ⟨is, hroots, hremoved⟩ := hsplit
  have hstray : strayOperand? rules = none ∧ is = (graph rules).sources := by
    rw [roots] at hroots
    split at hroots
    · contradiction
    next hstray =>
      dsimp only at hroots
      split at hroots
      · contradiction
      · exact ⟨hstray, (Except.ok.inj hroots).symm⟩
  obtain ⟨hstray, rfl⟩ := hstray
  obtain ⟨rank, hbound, hrank⟩ := Graph.exists_rank hremoved
  refine ⟨hroots, fun i => if hi : i < rules.length then rank ⟨i, hi⟩ else 0, ?_, ?_⟩
  · intro i hi
    dsimp only
    rw [dif_pos hi]
    apply hbound
  · intro i r hr j hj
    obtain ⟨hi, rfl⟩ := List.getElem?_eq_some_iff.mp hr
    have hlt := lt_of_strayOperand? hstray (List.getElem_mem hi) hj
    use hlt
    dsimp only
    rw [dif_pos hlt, dif_pos hi]
    apply hrank
    rw [mem_graph_iff]
    exact ⟨j, hj, rfl⟩

end DelegatedAccess.Rule
