import DelegatedAccess.Proofs.Rule.Tangle

/-!
# The removal of rules, edge by edge

When a rule is removed, the edges out of it are taken away one at a time, and each time the count
for a rule is lowered by one. A rule may refer to another several times, so that one removal may
lower a count several times, and a rule becomes ready only when the last of these edges is gone.

The count for a rule is always the number of edges to it from rules that are not removed, and of
those edges out of the rule removed last that are still to be taken away. So an edge that is taken
away is one that is counted.

The main result of this module is that no count is ever lowered below zero, that no rule is removed
twice, and that the removal comes to an end, where the rules are left that are tangled.
-/

namespace DelegatedAccess.Graph

variable {n : Nat}

/-- A moment of the removal of vertices. -/
structure Moment (n : Nat) where
  /-- The counts, the vertices that are ready and those that are removed. -/
  stage : Sweep n
  /-- The edges out of the vertex removed last that are still to be taken away. -/
  edges : List (Fin n)

namespace Moment

/-- At first no vertex is removed. -/
def start (g : Graph n) : Moment n :=
  ⟨Sweep.start g, []⟩

/-- In the end all steps are taken, and no edges are to be taken away. -/
def final (g : Graph n) : Moment n :=
  ⟨g.sweep, []⟩

/-- What comes after a moment: the next edge is taken away, or, with none left, the vertex that is
ready next is removed. -/
inductive Next (g : Graph n) : Moment n → Moment n → Prop where
  | remove {s : Sweep n} {i : Fin n} {ready : List (Fin n)} (h : s.ready = i :: ready) :
      Next g ⟨s, []⟩ ⟨{ s with ready, removed := i :: s.removed }, g.get i⟩
  | release {s : Sweep n} {j : Fin n} {edges : List (Fin n)} :
      Next g ⟨s, j :: edges⟩ ⟨s.release j, edges⟩

/-- A moment occurs when it is the first one or comes after one that occurs. -/
def Occurs (g : Graph n) (m : Moment n) : Prop :=
  Relation.ReflTransGen (Next g) (start g) m

variable {g : Graph n} {m t u : Moment n}

/-- One moment at most comes after a moment. -/
theorem Next.unique (h : Next g m t) (h' : Next g m u) :
  t = u
  := by
  cases h with
  | remove hready =>
      cases h' with
      | remove hready' =>
          obtain ⟨rfl, rfl⟩ := List.cons.inj (hready.symm.trans hready')
          rfl
  | release =>
      cases h'
      rfl

/-- The counts are right at the next moment when they are at this one. -/
theorem Next.counted (h : Next g m t) (hm : m.stage.Counted g m.edges) :
  t.stage.Counted g t.edges
  := by
  cases h with
  | remove hready => exact hm.remove hready
  | release => exact hm.release

/-- The counts are right at every moment that occurs. -/
theorem Occurs.counted (h : Occurs g m) :
  m.stage.Counted g m.edges
  := by
  induction h with
  | refl => exact Sweep.Counted.start g
  | tail _ hnext ih => exact hnext.counted ih

/-! ### The way to the end -/

/-- All edges are taken away, one after the other. -/
theorem reach_releaseAll (g : Graph n) (s : Sweep n) (edges : List (Fin n)) :
  Relation.ReflTransGen (Next g) ⟨s, edges⟩ ⟨edges.foldl Sweep.release s, []⟩
  := by
  induction edges generalizing s with
  | nil => exact .refl
  | cons j edges ih => exact (ih (s.release j)).head .release

/-- A step of the removal takes a vertex and then all edges out of it. -/
theorem reach_step (g : Graph n) (s : Sweep n) :
  Relation.ReflTransGen (Next g) ⟨s, []⟩ ⟨s.step g, []⟩
  := by
  rw [Sweep.step]
  cases hready : s.ready with
  | nil => exact .refl
  | cons i ready => exact (reach_releaseAll g _ (g.get i)).head (.remove hready)

/-- Any number of steps of the removal are taken edge by edge. -/
theorem reach_run (g : Graph n) (steps : Nat) (s : Sweep n) :
  Relation.ReflTransGen (Next g) ⟨s, []⟩ ⟨Sweep.run g steps s, []⟩
  := by
  induction steps generalizing s with
  | zero => exact .refl
  | succ steps ih => exact (reach_step g s).trans (ih (s.step g))

/-- Nothing comes after the end. -/
theorem not_next_final (g : Graph n) (t : Moment n) :
  ¬ Next g (final g) t
  := by
  intro h
  cases h with
  | remove hready =>
      rw [ready_sweep] at hready
      contradiction

/-- The end is reached from every moment that occurs. -/
theorem Occurs.reach_final (h : Occurs g m) :
  Relation.ReflTransGen (Next g) m (final g)
  := by
  have hend : Occurs g (final g) := reach_run g n (Sweep.start g)
  have hunique : Relator.RightUnique (Next g) := fun _ _ _ => Next.unique
  rcases Relation.ReflTransGen.total_of_right_unique hunique h hend with hreach | hreach
  · exact hreach
  · rcases hreach.cases_head with rfl | ⟨t, hnext, _⟩
    · exact .refl
    · exact absurd hnext (not_next_final g t)

/-- Moments from which the end is reached do not go on for ever. -/
theorem acc_of_reach_final (h : Relation.ReflTransGen (Next g) m (final g)) :
  Acc (fun u m => Next g m u) m
  := by
  induction h using Relation.ReflTransGen.head_induction_on with
  | refl =>
      constructor
      intro t hnext
      exact absurd hnext (not_next_final g t)
  | head hnext _ ih =>
      constructor
      intro t hnext'
      obtain rfl := hnext.unique hnext'
      exact ih

/-! ### What holds at every moment -/

/-- What holds at each moment that occurs. -/
structure IsSafe (g : Graph n) (m : Moment n) : Prop where
  /-- The count for a vertex is the number of edges to it from vertices that are not removed, and of
  those to it that are still to be taken away. -/
  indegree : ∀ j, m.stage.indegree.get j = g.edgesLeft m.stage.removed j + m.edges.count j
  /-- Where the next edge leads, the count can be lowered. -/
  positive : ∀ j edges, m.edges = j :: edges → 1 ≤ m.stage.indegree.get j
  /-- No vertex is ready or removed twice. -/
  once : (m.stage.ready ++ m.stage.removed).Nodup
  /-- No more vertices are removed than there are. -/
  bounded : m.stage.removed.length ≤ n
  /-- Another moment comes after this one, or it is the end. -/
  goesOn : (∃ t, Next g m t) ∨ m = final g

/-- Every moment that occurs is safe. -/
theorem Occurs.isSafe (h : Occurs g m) :
  IsSafe g m
  := by
  have hcounted := h.counted
  constructor
  case indegree => exact hcounted.indegree
  case positive =>
    intro j edges hedges
    rw [hcounted.indegree j, hedges, List.count_cons_self]
    apply Nat.le_add_left
  case once => exact hcounted.nodup
  case bounded => exact Nat.le_trans (Nat.le_add_left _ _) hcounted.length_le
  case goesOn =>
    rcases h.reach_final.cases_head with heq | ⟨t, hnext, _⟩
    · exact .inr heq
    · exact .inl ⟨t, hnext⟩

end Moment

end DelegatedAccess.Graph

namespace DelegatedAccess.Rule

open DelegatedAccess.Graph

variable {rules : List Rule}

/-- The rules that are removed in the end are those that are not tangled. -/
theorem mem_removed_graph_iff (j : Fin rules.length) :
  j ∈ (graph rules).sweep.removed ↔ ¬ IsTangled rules j
  := by
  rw [← indegree_sweep_graph_pos_iff, indegree_sweep_pos_iff, not_not]

/-- When operands are in range, the edges out of a rule are its operands, in order and with
repetitions. -/
theorem map_get_graph (hin : InRange rules) (i : Fin rules.length) :
  ((graph rules).get i).map Fin.val = (rules.get i).operands.map BitVec.toNat
  := by
  rw [get_graph, targets, List.map_filterMap, ← List.filterMap_eq_map]
  apply List.filterMap_congr
  intro j hj
  have hlt : j.toNat < rules.length :=
    hin i j.toNat (refers_iff.mpr ⟨_, List.getElem?_eq_getElem i.isLt, j, hj, rfl⟩)
  rw [dif_pos hlt]
  rfl

/-- Where the top-level rules of a sequence are found, the rules are removed edge by edge, where the
edges out of a rule are its operands, and each step of the removal is made of such moments. They
come to an end. At every moment the count for a rule is the number of edges to it that are left, so
that it is at least one where the next edge leads; no rule is removed twice, so that no more are
removed than there are; and unless it is the end, another moment follows. In the end exactly those
rules are removed that are on no cycle and on which no rule on a cycle depends, and the check tells
of a cycle when these are not all. -/
theorem removal_safe {is : List (Fin rules.length)} (h : roots rules = .ok is) :
  (∀ i : Fin rules.length,
    ((graph rules).get i).map Fin.val = (rules.get i).operands.map BitVec.toNat) ∧
    (∀ steps, Moment.Occurs (graph rules)
      ⟨Sweep.run (graph rules) steps (Sweep.start (graph rules)), []⟩) ∧
    Acc (fun u m => Moment.Next (graph rules) m u) (Moment.start (graph rules)) ∧
    (∀ m, Moment.Occurs (graph rules) m → Moment.IsSafe (graph rules) m) ∧
    (∀ j : Fin rules.length, j ∈ (Moment.final (graph rules)).stage.removed ↔
      ¬ ∃ i, Relation.TransGen (Refers rules) i i ∧ Relation.ReflTransGen (Refers rules) i j) ∧
    checkStructure rules =
      if (Moment.final (graph rules)).stage.removed.length < rules.length then
        .error (.cycle (firstStuck rules))
      else .ok ()
  := by
  obtain ⟨hin, _, _⟩ := of_roots h
  have hstart : Moment.Occurs (graph rules) (Moment.start (graph rules)) := .refl
  exact ⟨map_get_graph hin, fun steps => Moment.reach_run _ steps _,
    Moment.acc_of_reach_final hstart.reach_final, fun m => Moment.Occurs.isSafe,
    mem_removed_graph_iff, checkStructure_of_ok h⟩

/-! ### An example -/

/-- The top-level rule refers three times to the same rule, which refers to one on a cycle. -/
abbrev thrice : List Rule :=
  [.ifElse 1 1 1, .not 2, .not 2]

/-- The moment at which one of three edges from the first rule to the second is taken away. -/
def oneTaken : Moment thrice.length :=
  let s := Sweep.start (graph thrice)
  ⟨Sweep.release { s with ready := [], removed := [0] } 1, [1, 1]⟩

/-- Two edges are still counted when one of three is taken away. The rule on the cycle is left in
the end, and named. -/
theorem removal_safe_thrice :
  roots thrice = .ok [0] ∧ Moment.IsSafe (graph thrice) oneTaken ∧
    oneTaken.stage.indegree.get 1 = 2 ∧
    (Moment.final (graph thrice)).stage.removed = [1, 0] ∧
    checkStructure thrice = .error (.cycle 2)
  := by
  have hroots : roots thrice = .ok [0] := by decide +kernel
  obtain ⟨_, _, _, hsafe, _, hcheck⟩ := removal_safe hroots
  have hremove : (Sweep.start (graph thrice)).ready = [0] := by decide +kernel
  have hoccurs : Moment.Occurs (graph thrice) oneTaken :=
    .head (.remove hremove) (.head .release .refl)
  refine ⟨hroots, hsafe _ hoccurs, by decide +kernel, by decide +kernel, ?_⟩
  rw [hcheck]
  decide +kernel

end DelegatedAccess.Rule
