import DelegatedAccess.Proofs.Rule.Order
import Mathlib.Data.Multiset.AddSub
import Mathlib.Logic.Relation
import Mathlib.Order.WellFounded

/-!
# The search for what can be reached

A step of the search takes some vertex that waits. If it is not marked yet, it is marked, and the
targets of the edges out of it wait. Which vertex is taken makes no difference in the end, so the
vertices that wait are in no order here, and the stack of the search is one way to keep them.

A vertex may wait many times, also when it is marked already, so that a step may leave more
vertices waiting than before, or mark none. But the edges out of a vertex let their targets wait
only once, so the vertices that wait and the edges out of vertices that are not marked decrease
together, by one with each step.

The main result of this module is that the search comes to an end however its steps are taken, and
that in the end the vertices are marked to which a path leads from one of those given.
-/

namespace DelegatedAccess.Graph

variable {n : Nat}

/-- An edge leads from one vertex to another. -/
def Adj (g : Graph n) (i j : Fin n) : Prop :=
  j ∈ g.get i

/-! ### Edges out of vertices that are not marked -/

/-- The number of edges out of vertices that are not marked. -/
def edgesUnseen (g : Graph n) (seen : Vector Bool n) : Nat :=
  ∑ i with seen.get i = false, (g.get i).length

/-- The edges out of vertices that are not marked are those of a vertex to be marked and
those of the others. -/
theorem edgesUnseen_eq_add (g : Graph n) {seen : Vector Bool n} {i : Fin n}
    (h : seen.get i = false) :
  g.edgesUnseen seen = g.edgesUnseen (seen.set i true i.isLt) + (g.get i).length
  := by
  have hmem : i ∈ Finset.univ.filter fun j => seen.get j = false := by simpa using h
  have herase : (Finset.univ.filter fun j => (seen.set i true i.isLt).get j = false) =
      (Finset.univ.filter fun j => seen.get j = false).erase i := by
    ext j
    rcases eq_or_ne i j with rfl | hij
    · simp [get_set_self]
    · simp [get_set_of_ne seen hij, Ne.symm hij]
  rw [edgesUnseen, edgesUnseen, herase]
  exact (Finset.sum_erase_add _ _ hmem).symm

/-- At first no vertex is marked and all edges are counted. -/
theorem edgesUnseen_replicate (g : Graph n) :
  g.edgesUnseen (Vector.replicate n false) = g.edgeCount
  := by
  have hmap : g.toList.map List.length = List.ofFn fun i : Fin n => (g.get i).length := by
    apply List.ext_getElem
    · simp
    · intro i h h'
      simp [Vector.get]
  rw [edgeCount, List.length_flatten, hmap, List.sum_ofFn, edgesUnseen,
    Finset.filter_true_of_mem]
  intro i _
  apply get_replicate

/-! ### Steps -/

/-- A stage of the search. -/
structure Stage (n : Nat) where
  /-- The vertices that wait, in no order, and some of them perhaps more than once. -/
  waiting : Multiset (Fin n)
  /-- The vertices that are marked. -/
  seen : Vector Bool n

namespace Stage

/-- At first the vertices given wait, and none is marked. -/
def start (vs : List (Fin n)) : Stage n :=
  ⟨vs, Vector.replicate n false⟩

/-- A vertex is met when it is marked or waits. -/
def Met (s : Stage n) (j : Fin n) : Prop :=
  s.seen.get j = true ∨ j ∈ s.waiting

/-- A step takes any of the vertices that wait. One that is not marked yet is marked, and the
targets of the edges out of it wait. -/
inductive Next (g : Graph n) : Stage n → Stage n → Prop where
  | skip {i : Fin n} {waiting : Multiset (Fin n)} {seen : Vector Bool n}
      (h : seen.get i = true) :
      Next g ⟨i ::ₘ waiting, seen⟩ ⟨waiting, seen⟩
  | mark {i : Fin n} {waiting : Multiset (Fin n)} {seen : Vector Bool n}
      (h : seen.get i = false) :
      Next g ⟨i ::ₘ waiting, seen⟩ ⟨g.get i + waiting, seen.set i true i.isLt⟩

variable {g : Graph n} {s t : Stage n} {vs : List (Fin n)}

/-- A step can be taken as long as a vertex waits. -/
theorem exists_next (g : Graph n) {s : Stage n} (h : s.waiting ≠ 0) :
  ∃ t, Next g s t
  := by
  obtain ⟨waiting, seen⟩ := s
  obtain ⟨i, hi⟩ := Multiset.exists_mem_of_ne_zero h
  obtain ⟨rest, rfl⟩ := Multiset.exists_cons_of_mem hi
  cases hseen : seen.get i with
  | true => exact ⟨_, .skip hseen⟩
  | false => exact ⟨_, .mark hseen⟩

/-- What bounds the number of steps that can be taken: the vertices that wait and the edges that may
let others wait. -/
def bound (g : Graph n) (s : Stage n) : Nat :=
  s.waiting.card + g.edgesUnseen s.seen

/-- Each step takes one from what bounds the steps. -/
theorem Next.bound_eq (h : Next g s t) :
  bound g s = bound g t + 1
  := by
  cases h with
  | skip _ =>
      simp only [bound, Multiset.card_cons]
      omega
  | mark hi =>
      simp only [bound, Multiset.card_cons, Multiset.card_add, Multiset.coe_card,
        g.edgesUnseen_eq_add hi]
      omega

/-- No steps go on for ever. -/
theorem wellFounded_next (g : Graph n) :
  WellFounded fun t s => Next g s t
  := by
  apply Subrelation.wf (r := InvImage (· < ·) (bound g)) _ (InvImage.wf (bound g) wellFounded_lt)
  intro t s h
  exact Nat.lt_of_succ_le h.bound_eq.ge

/-- No step unmarks a vertex. -/
theorem Next.seen (h : Next g s t) {j : Fin n} (hj : s.seen.get j = true) :
  t.seen.get j = true
  := by
  cases h with
  | skip _ => exact hj
  | @mark i _ seen _ =>
      rcases eq_or_ne i j with rfl | hij
      · exact get_set_self seen i true
      · exact (get_set_of_ne seen hij true).trans hj

/-- What a step marks is met before, and the targets of the edges out of it are met after. -/
theorem Next.of_seen (h : Next g s t) {j : Fin n} (hj : t.seen.get j = true) :
  s.seen.get j = true ∨ s.Met j ∧ ∀ k, g.Adj j k → t.Met k
  := by
  cases h with
  | skip _ => exact Or.inl hj
  | @mark i _ seen _ =>
      rcases eq_or_ne i j with rfl | hij
      · refine Or.inr ⟨Or.inr (Multiset.mem_cons_self i _), ?_⟩
        intro k hk
        exact Or.inr (Multiset.mem_add.mpr (Or.inl hk))
      · exact Or.inl ((get_set_of_ne seen hij true).symm.trans hj)

/-- What is met before a step is met after it. -/
theorem Next.met (h : Next g s t) {j : Fin n} (hj : s.Met j) :
  t.Met j
  := by
  rcases hj with hj | hj
  · exact Or.inl (h.seen hj)
  · cases h with
    | skip hi =>
        rcases Multiset.mem_cons.mp hj with rfl | hj
        · exact Or.inl hi
        · exact Or.inr hj
    | @mark i _ seen _ =>
        rcases Multiset.mem_cons.mp hj with rfl | hj
        · exact Or.inl (get_set_self seen j true)
        · exact Or.inr (Multiset.mem_add.mpr (Or.inr hj))

/-- An edge leads from something met to what a step lets be met. -/
theorem Next.of_met (h : Next g s t) {j : Fin n} (hj : t.Met j) :
  s.Met j ∨ ∃ i, s.Met i ∧ g.Adj i j
  := by
  rcases hj with hj | hj
  · rcases h.of_seen hj with hj | ⟨hj, _⟩
    · exact Or.inl (Or.inl hj)
    · exact Or.inl hj
  · cases h with
    | skip _ => exact Or.inl (Or.inr (Multiset.mem_cons_of_mem hj))
    | @mark i _ _ _ =>
        rcases Multiset.mem_add.mp hj with hj | hj
        · exact Or.inr ⟨i, Or.inr (Multiset.mem_cons_self i _), hj⟩
        · exact Or.inl (Or.inr (Multiset.mem_cons_of_mem hj))

/-! ### Runs -/

/-- What is true of every stage of the search from some vertices. -/
structure IsSound (g : Graph n) (vs : List (Fin n)) (s : Stage n) : Prop where
  /-- A path leads from one of the vertices given to what is met. -/
  path : ∀ j, s.Met j → ∃ i ∈ vs, Relation.ReflTransGen g.Adj i j
  /-- The vertices given are met. -/
  given : ∀ i ∈ vs, s.Met i
  /-- The targets of the edges out of what is marked are met. -/
  covered : ∀ i, s.seen.get i = true → ∀ j, g.Adj i j → s.Met j

/-- At first the vertices given are met. -/
theorem IsSound.start (g : Graph n) (vs : List (Fin n)) :
  IsSound g vs (start vs)
  := by
  have hunseen : ∀ j, (Stage.start vs).seen.get j ≠ true := by
    intro j hj
    exact Bool.false_ne_true ((get_replicate false j).symm.trans hj)
  constructor
  case path =>
    rintro j (hj | hj)
    · exact absurd hj (hunseen j)
    · exact ⟨j, hj, .refl⟩
  case given => exact fun i hi => Or.inr hi
  case covered => exact fun i hi => absurd hi (hunseen i)

/-- A step keeps a stage sound. -/
theorem IsSound.next (hs : IsSound g vs s) (h : Next g s t) :
  IsSound g vs t
  := by
  constructor
  case path =>
    intro j hj
    rcases h.of_met hj with hj | ⟨i, hi, hij⟩
    · exact hs.path j hj
    · obtain ⟨k, hk, hki⟩ := hs.path i hi
      exact ⟨k, hk, hki.tail hij⟩
  case given => exact fun i hi => h.met (hs.given i hi)
  case covered =>
    intro i hi j hij
    rcases h.of_seen hi with hi | ⟨_, htargets⟩
    · exact h.met (hs.covered i hi j hij)
    · exact htargets j hij

/-- Any number of steps keep a stage sound. -/
theorem IsSound.run (hs : IsSound g vs s) (h : Relation.ReflTransGen (Next g) s t) :
  IsSound g vs t
  := by
  induction h with
  | refl => exact hs
  | tail _ hnext ih => exact ih.next hnext

/-- When no vertex waits, those are marked to which a path leads from one of the vertices given. -/
theorem IsSound.seen_iff (hs : IsSound g vs s) (hdone : s.waiting = 0) {j : Fin n} :
  s.seen.get j = true ↔ ∃ i ∈ vs, Relation.ReflTransGen g.Adj i j
  := by
  have hseen : ∀ j, s.Met j → s.seen.get j = true := by
    intro j hj
    apply hj.resolve_right
    rw [hdone]
    exact Multiset.notMem_zero j
  constructor
  · intro hj
    exact hs.path j (Or.inl hj)
  · rintro ⟨i, hi, hij⟩
    induction hij with
    | refl => exact hseen i (hs.given i hi)
    | tail _ hjk ih => exact hseen _ (hs.covered _ ih _ hjk)

/-! ### The search on a stack -/

/-- With enough steps the search on a stack is a run until no vertex waits. -/
theorem run_search (g : Graph n) (steps : Nat) (stack : List (Fin n)) (seen : Vector Bool n)
    (hsteps : bound g ⟨stack, seen⟩ ≤ steps) :
  Relation.ReflTransGen (Next g) ⟨stack, seen⟩ ⟨0, g.search steps stack seen⟩
  := by
  induction steps generalizing stack seen with
  | zero =>
      have hstack : stack.length = 0 :=
        Nat.eq_zero_of_add_eq_zero_right (Nat.eq_zero_of_le_zero hsteps)
      obtain rfl := List.eq_nil_of_length_eq_zero hstack
      exact .refl
  | succ steps ih =>
      cases stack with
      | nil => exact .refl
      | cons i stack =>
          have hleft : ∀ t, Next g ⟨↑(i :: stack), seen⟩ t → bound g t ≤ steps := by
            intro t ht
            rw [ht.bound_eq] at hsteps
            exact Nat.le_of_succ_le_succ hsteps
          rw [search]
          split
          next hi =>
            have hnext : Next g ⟨↑(i :: stack), seen⟩ ⟨stack, seen⟩ := by
              rw [← Multiset.cons_coe]
              exact .skip (i := i) hi
            exact (ih stack seen (hleft _ hnext)).head hnext
          next hi =>
            have hnext : Next g ⟨↑(i :: stack), seen⟩
                ⟨↑(g.get i ++ stack), seen.set i true i.isLt⟩ := by
              rw [← Multiset.cons_coe, ← Multiset.coe_add]
              exact .mark (i := i) (Bool.eq_false_of_not_eq_true hi)
            exact (ih _ _ (hleft _ hnext)).head hnext

/-- The search from some vertices is a run until no vertex waits. -/
theorem run_reachable (g : Graph n) (vs : List (Fin n)) :
  Relation.ReflTransGen (Next g) (start vs) ⟨0, g.reachable vs⟩
  := by
  apply run_search
  rw [bound, edgesUnseen_replicate, Multiset.coe_card]

end Stage

/-- A vertex is marked as reachable when a path leads to it from a vertex given. -/
theorem reachable_iff (g : Graph n) (start : List (Fin n)) (j : Fin n) :
  (g.reachable start).get j = true ↔ ∃ i ∈ start, Relation.ReflTransGen g.Adj i j
  := ((Stage.IsSound.start g start).run (Stage.run_reachable g start)).seen_iff rfl

/-- However its steps are taken, the search from some vertices comes to an end, with these marks. -/
structure Settles (g : Graph n) (vs : List (Fin n)) (marks : Vector Bool n) : Prop where
  /-- No steps go on for ever. -/
  ends : Acc (fun t s => Stage.Next g s t) (Stage.start vs)
  /-- Where no step can be taken, no vertex waits and the marks are these. -/
  outcome : ∀ s, Relation.ReflTransGen (Stage.Next g) (Stage.start vs) s →
    (∃ t, Stage.Next g s t) ∨ s = ⟨0, marks⟩

/-- However its steps are taken, the search comes to an end with the marks that it finds on a
stack. -/
theorem settles_reachable (g : Graph n) (vs : List (Fin n)) :
  g.Settles vs (g.reachable vs)
  where
  ends := (Stage.wellFounded_next g).apply _
  outcome s hs := by
    by_cases hdone : s.waiting = 0
    · right
      have hmarks : s.seen = g.reachable vs := by
        ext i hi
        have hiff := ((Stage.IsSound.start g vs).run hs).seen_iff hdone (j := ⟨i, hi⟩)
        rw [← reachable_iff] at hiff
        exact Bool.eq_iff_iff.mpr hiff
      rw [← hdone, ← hmarks]
    · exact Or.inl (Stage.exists_next g hdone)

end DelegatedAccess.Graph
