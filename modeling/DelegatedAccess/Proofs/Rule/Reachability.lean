import DelegatedAccess.Proofs.Rule.Search
import Mathlib.Data.Fintype.Order

/-!
# Cycles

The removal of vertices in dependency order, compared with paths in the graph. It takes away the
vertices to which no path leads from a cycle. In a graph without cycles these are all, and a path
leads to each vertex from a source.
-/

namespace DelegatedAccess.Graph

variable {n : Nat}

/-- No path leads from a vertex to itself. -/
def IsAcyclic (g : Graph n) : Prop :=
  ∀ i, ¬ Relation.TransGen g.Adj i i

/-! ### The removal -/

namespace Sweep

/-- Every vertex to which no edge is left is ready or removed. -/
def IsComplete (s : Sweep n) : Prop :=
  ∀ j, s.indegree.get j = 0 → j ∈ s.ready ++ s.removed

/-- At first the vertices to which no edge leads are ready. -/
theorem IsComplete.start (g : Graph n) :
  (Sweep.start g).IsComplete
  := by
  intro j hj
  apply List.mem_append_left
  apply List.mem_reverse.mpr
  apply List.mem_filter.mpr ⟨List.mem_finRange j, decide_eq_true hj⟩

/-- A vertex becomes ready when the last edge to it is taken away. -/
theorem IsComplete.release {s : Sweep n} (h : s.IsComplete) (j : Fin n) :
  (s.release j).IsComplete
  := by
  intro i hi
  by_cases hij : j = i
  · subst hij
    have hself : (s.release j).indegree.get j = s.indegree.get j - 1 :=
      get_set_self s.indegree j _
    rw [hself] at hi
    have hready : (s.release j).ready = j :: s.ready := if_pos hi
    rw [hready]
    apply List.mem_cons_self
  · have hother : (s.release j).indegree.get i = s.indegree.get i :=
      get_set_of_ne s.indegree hij _
    rw [hother] at hi
    have hmem := h i hi
    rw [Sweep.release]
    dsimp only
    split
    · apply List.mem_cons_of_mem j hmem
    · exact hmem

/-- All edges out of a vertex can be taken away. -/
theorem IsComplete.releaseAll {s : Sweep n} (h : s.IsComplete) (es : List (Fin n)) :
  (es.foldl Sweep.release s).IsComplete
  := by
  induction es generalizing s with
  | nil => exact h
  | cons j es ih => apply ih (h.release j)

/-- A step makes ready what becomes free. -/
theorem IsComplete.step {s : Sweep n} (h : s.IsComplete) (g : Graph n) :
  (s.step g).IsComplete
  := by
  rw [Sweep.step]
  cases hready : s.ready with
  | nil => exact h
  | cons i ready =>
      apply IsComplete.releaseAll
      intro j hj
      have hmem := h j hj
      rw [hready] at hmem
      apply List.perm_middle.symm.subset hmem

/-- Any number of steps make ready what becomes free. -/
theorem IsComplete.run {s : Sweep n} (h : s.IsComplete) (g : Graph n) (steps : Nat) :
  (run g steps s).IsComplete
  := by
  induction steps generalizing s with
  | zero => exact h
  | succ steps ih => apply ih (h.step g)

/-- Taking edges away removes no vertex. -/
theorem removed_releaseAll (s : Sweep n) (es : List (Fin n)) :
  (es.foldl Sweep.release s).removed = s.removed
  := by
  induction es generalizing s with
  | nil => rfl
  | cons j es ih =>
      rw [List.foldl_cons, ih]
      rfl

/-- A vertex is removed at each step until none is ready. -/
theorem ready_eq_nil_or (g : Graph n) (steps : Nat) (s : Sweep n) :
  (run g steps s).ready = [] ∨ (run g steps s).removed.length = s.removed.length + steps
  := by
  induction steps generalizing s with
  | zero => exact Or.inr rfl
  | succ steps ih =>
      rw [run]
      cases hready : s.ready with
      | nil =>
          have hstep : s.step g = s := by rw [Sweep.step, hready]
          have hrun : ∀ k, run g k s = s := by
            intro k
            induction k with
            | zero => rfl
            | succ k ihk => rw [run, hstep, ihk]
          rw [hstep, hrun]
          exact Or.inl hready
      | cons i ready =>
          have hremoved : (s.step g).removed = i :: s.removed := by
            rw [Sweep.step, hready]
            apply removed_releaseAll
          rcases ih (s.step g) with hnil | hlength
          · exact Or.inl hnil
          · right
            rw [hlength, hremoved, List.length_cons]
            omega

end Sweep

/-- In the end the edges to each vertex are counted. -/
theorem counted_sweep (g : Graph n) :
  Sweep.Counted g g.sweep []
  := (Sweep.Counted.start g).run n

/-- In the end no vertex is ready. -/
theorem ready_sweep (g : Graph n) :
  g.sweep.ready = []
  := by
  rcases Sweep.ready_eq_nil_or g n (Sweep.start g) with hnil | hlength
  · exact hnil
  · have hlength : g.sweep.removed.length = n := hlength.trans (Nat.zero_add n)
    have hle := g.counted_sweep.length_le
    apply List.eq_nil_of_length_eq_zero
    omega

/-- The vertices to which edges are left in the end are those that are never removed. -/
theorem indegree_sweep_pos_iff (g : Graph n) (j : Fin n) :
  0 < g.sweep.indegree.get j ↔ j ∉ g.sweep.removed
  := by
  constructor
  · intro hpos hmem
    exact Nat.ne_of_gt hpos (g.counted_sweep.settled j (List.mem_append_right _ hmem))
  · intro hnot
    have hcomplete : g.sweep.IsComplete := (Sweep.IsComplete.start g).run g n
    apply Nat.pos_of_ne_zero
    intro hzero
    have hmem := hcomplete j hzero
    rw [ready_sweep] at hmem
    apply hnot hmem

/-- To each vertex that is never removed an edge leads from another that is never removed. -/
theorem exists_of_not_mem_removed {g : Graph n} {j : Fin n} (h : j ∉ g.sweep.removed) :
  ∃ i, i ∉ g.sweep.removed ∧ g.Adj i j
  := by
  have hpos := Nat.ne_of_gt ((g.indegree_sweep_pos_iff j).mpr h)
  rw [g.counted_sweep.indegree j, List.count_nil, Nat.add_zero] at hpos
  obtain ⟨i, hi, hcount⟩ := Finset.exists_ne_zero_of_sum_ne_zero hpos
  exact ⟨i, by simpa using hi, List.count_pos_iff.mp (Nat.pos_of_ne_zero hcount)⟩

/-- A path to a vertex that is removed comes from vertices that are removed before it. -/
theorem Ordered.of_transGen {g : Graph n} {removed : List (Fin n)} (h : g.Ordered removed)
    (hnodup : removed.Nodup) {i j : Fin n} (hj : j ∈ removed)
    (hij : Relation.TransGen g.Adj i j) :
  i ∈ removed ∧ removed.idxOf j < removed.idxOf i
  := by
  induction hij using Relation.TransGen.head_induction_on with
  | single hi => exact ⟨h.mem hj hi, h.idxOf_lt hnodup hj hi⟩
  | head hi _ ih =>
      obtain ⟨hmem, hlt⟩ := ih
      exact ⟨h.mem hmem hi, hlt.trans (h.idxOf_lt hnodup hmem hi)⟩

/-- The vertices that are never removed are those to which a path leads from a cycle. -/
theorem not_mem_removed_iff (g : Graph n) (j : Fin n) :
  j ∉ g.sweep.removed ↔
    ∃ i, Relation.TransGen g.Adj i i ∧ Relation.ReflTransGen g.Adj i j
  := by
  constructor
  · intro hj
    by_contra hnone
    -- Going back along the paths to the vertex comes to an end, as none comes from a cycle.
    let before (i k : Fin n) : Prop :=
      Relation.TransGen g.Adj i k ∧ Relation.ReflTransGen g.Adj k j
    have htrans : IsTrans (Fin n) before :=
      ⟨fun i k l hik hkl => ⟨hik.1.trans hkl.1, hkl.2⟩⟩
    have hirrefl : Std.Irrefl before := ⟨fun i hi => hnone ⟨i, hi⟩⟩
    obtain ⟨k, ⟨hk, hkj⟩, hmin⟩ := (Finite.wellFounded_of_trans_of_irrefl before).has_min
      {k | k ∉ g.sweep.removed ∧ Relation.ReflTransGen g.Adj k j} ⟨j, hj, .refl⟩
    obtain ⟨i, hi, hik⟩ := exists_of_not_mem_removed hk
    exact hmin i ⟨hi, hkj.head hik⟩ ⟨.single hik, hkj⟩
  · rintro ⟨i, hcycle, hij⟩ hj
    have hordered := g.counted_sweep.ordered
    have hnodup : g.sweep.removed.Nodup := g.counted_sweep.nodup.of_append_right
    have hi : i ∈ g.sweep.removed := by
      rcases Relation.reflTransGen_iff_eq_or_transGen.mp hij with rfl | hij
      · exact hj
      · exact (hordered.of_transGen hnodup hj hij).1
    exact Nat.lt_irrefl _ (hordered.of_transGen hnodup hi hcycle).2

/-! ### Graphs without cycles -/

/-- Vertices with ranks that decrease along the edges are on no cycle. -/
theorem isAcyclic_of_rank {g : Graph n} {rank : Fin n → Nat}
    (h : ∀ i, ∀ j ∈ g.get i, rank j < rank i) :
  g.IsAcyclic
  := by
  intro i hi
  have hlt : ∀ j, Relation.TransGen g.Adj i j → rank j < rank i := by
    intro j hj
    induction hj with
    | single hj => apply h i _ hj
    | tail _ hk ih => apply Nat.lt_trans (h _ _ hk) ih
  exact Nat.lt_irrefl _ (hlt i hi)

/-- Going back along the edges of a graph without cycles comes to an end. -/
theorem IsAcyclic.wellFounded {g : Graph n} (h : g.IsAcyclic) :
  WellFounded g.Adj
  := by
  have : Std.Irrefl (Relation.TransGen g.Adj) := ⟨h⟩
  apply Subrelation.wf (r := Relation.TransGen g.Adj) Relation.TransGen.single
  exact Finite.wellFounded_of_trans_of_irrefl _

/-- All vertices of a graph are removed exactly when it has no cycles. -/
theorem removed_iff_isAcyclic (g : Graph n) :
  n ≤ g.sweep.removed.length ↔ g.IsAcyclic
  := by
  constructor
  · intro h
    obtain ⟨rank, _, hrank⟩ := exists_rank h
    exact isAcyclic_of_rank hrank
  · intro h
    have hall : ∀ j, j ∈ g.sweep.removed := by
      intro j
      by_contra hnot
      obtain ⟨i, hcycle, _⟩ := (g.not_mem_removed_iff j).mp hnot
      apply h i hcycle
    calc n = (List.finRange n).length := List.length_finRange.symm
      _ ≤ g.sweep.removed.length := by
        apply List.Subperm.length_le
        apply (List.nodup_finRange n).subperm
        intro j _
        exact hall j

/-- A path leads to each vertex of a graph without cycles from a source. -/
theorem IsAcyclic.exists_source {g : Graph n} (h : g.IsAcyclic) (j : Fin n) :
  ∃ i ∈ g.sources, Relation.ReflTransGen g.Adj i j
  := by
  induction j using h.wellFounded.induction with
  | _ j ih =>
      by_cases hsource : ∃ k, g.Adj k j
      · obtain ⟨k, hkj⟩ := hsource
        obtain ⟨i, hi, hik⟩ := ih k hkj
        exact ⟨i, hi, hik.tail hkj⟩
      · use j
        constructor
        · rw [sources_eq]
          apply List.mem_filter.mpr ⟨List.mem_finRange j, ?_⟩
          apply decide_eq_true
          intro u hu
          apply hsource ⟨u, hu⟩
        · apply Relation.ReflTransGen.refl

end DelegatedAccess.Graph
