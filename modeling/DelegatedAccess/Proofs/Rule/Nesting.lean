import DelegatedAccess.Proofs.Rule.Acceptance
import DelegatedAccess.Proofs.Rule.Alike
import DelegatedAccess.Proofs.Rule.Failure

/-!
# How deep evaluations nest

A rule is asked for while others are being evaluated: those that have asked for each other, from a
top-level rule down to the one that asks. An evaluation can gauge how many calls are nested at
most, those that are refused counted. Nothing else about the evaluation is different.

The main results of this module are that an evaluation with a gauge is that evaluation, and rules
by which a bound on the gauge and a property of errors are carried through an evaluation. Only the
rules on the stack are noted as being evaluated, so that a rule is put on the stack once and the
stack is no higher than the number of rules.
-/

namespace DelegatedAccess

variable {σ ν α β ε : Type}

/-! ### Evaluations with a gauge -/

/-- The oracles, which leave the gauge. -/
def Panel.gauging (panel : Panel σ) : Panel (σ × Nat) :=
  fun e => (panel e).map fun o q u =>
    let (yes, s) := (o q).run u.1
    (yes, (s, u.2))

/-- Oracles leave what the gauge shows, and do nothing else differently. -/
theorem Panel.alike_gauging (panel : Panel σ) (C : Nat → Prop) :
  panel.gauging.Alike (fun u s => u.1 = s ∧ C u.2) panel
  := by
  intro e
  rw [gauging]
  cases panel e with
  | none => apply Option.Rel.none
  | some o =>
      apply Option.Rel.some
      rintro q u _ ⟨rfl, hu⟩
      exact ⟨rfl, rfl, hu⟩

namespace Rule

/-- The instrument that gauges how many calls are nested. -/
def Instrument.gauge (panel : Panel σ) : Instrument (σ × Nat) where
  asked nesting u := (u.1, max u.2 nesting)
  begun _ := id
  panel _ := panel.gauging

/-- Whether a sequence passes for a request, with a gauge of how many calls are nested. -/
def gaugeAll (rules : List Rule) (panel : Panel σ) (req : Request) (limit : Nat) :
    ExceptT RuleError (StateM (σ × Nat)) Bool :=
  measureAll (.gauge panel) rules req limit

/-- How many calls are nested at most in an evaluation. -/
def deepest (rules : List Rule) (panel : Panel σ) (req : Request) (limit : Nat) (s : σ) : Nat :=
  ((gaugeAll rules panel req limit).run.run (s, 0)).2.2

section

variable (rules : List Rule) (panel : Panel σ) (req : Request) (limit : Nat)

/-- With a gauge nothing else is displayed differently. -/
theorem alike_gauge :
  Instrument.Alike (fun u s => u.1 = s) rules (.gauge panel) req (.blank panel) req
  where
  asked _ _ _ := id
  begun _ _ _ := id
  tests _ := by
    have hpanel : panel.gauging.Alike (fun u s => u.1 = s) panel := by
      simpa only [and_true] using panel.alike_gauging fun _ => True
    exact hpanel.testsAlike rules req

/-- An evaluation with a gauge comes to what the evaluation comes to. -/
theorem gaugeAll_run (s : σ) :
  (gaugeAll rules panel req limit).run.run (s, 0) =
    (((evaluate rules panel req limit).run.run s).1,
      (((evaluate rules panel req limit).run.run s).2, deepest rules panel req limit s))
  := by
  have halike : AlikeExcept (fun u s => u.1 = s) (gaugeAll rules panel req limit)
      (evaluate rules panel req limit) := by
    rw [← measureAll_blank]
    exact (alike_gauge rules panel req).measureAll limit
  obtain ⟨hresult, hstate⟩ := halike (s, 0) s rfl
  exact Prod.ext hresult (Prod.ext hstate rfl)

end

end Rule

/-! ### What the gauge shows -/

/-- From notes with one property, and with the gauge within a bound, a computation leaves notes
with another property or fails with one of some errors, and leaves the gauge within the bound. -/
def Nests (bound : Nat) (E : ε → Prop) (P : ν → Prop)
    (m : StateT ν (ExceptT ε (StateM (σ × Nat))) α) (Q : ν → Prop) : Prop :=
  ∀ v u, P v → u.2 ≤ bound → ((m.run v).run.run u).2.2 ≤ bound ∧
    match ((m.run v).run.run u).1 with
    | .error e => E e
    | .ok (_, w) => Q w

namespace Nests

variable {bound : Nat} {E : ε → Prop} {P Q R : ν → Prop}

/-- A result leaves the notes. -/
theorem pure {a : α} (h : ∀ v, P v → Q v) :
  Nests bound E P (Pure.pure a : StateT ν (ExceptT ε (StateM (σ × Nat))) α) Q
  := fun _ _ hv hu => ⟨hu, h _ hv⟩

/-- A failure is one of the errors. -/
theorem throw {e : ε} (h : ∀ v, P v → E e) :
  Nests bound E P (MonadExcept.throw e : StateT ν (ExceptT ε (StateM (σ × Nat))) α) Q
  := fun _ _ hv hu => ⟨hu, h _ hv⟩

/-- What comes after a computation goes on from the notes that it leaves. -/
theorem bind {m : StateT ν (ExceptT ε (StateM (σ × Nat))) α}
    {f : α → StateT ν (ExceptT ε (StateM (σ × Nat))) β} (hm : Nests bound E P m Q)
    (hf : ∀ a, Nests bound E Q (f a) R) :
  Nests bound E P (m >>= f) R
  := by
  intro v u hv hu
  have h := hm v u hv hu
  rw [bind_run]
  revert h
  generalize (m.run v).run.run u = x
  obtain ⟨x, t⟩ := x
  cases x with
  | error e => exact id
  | ok y => exact fun h => hf y.1 y.2 t h.2 h.1

/-- The notes can be read. -/
theorem get {f : ν → StateT ν (ExceptT ε (StateM (σ × Nat))) α}
    (h : ∀ v, P v → Nests bound E (fun w => w = v) (f v) Q) :
  Nests bound E P (MonadState.get >>= f) Q
  := fun v u hv hu => h v hv v u rfl hu

/-- The notes can be changed. -/
theorem modify {g : ν → ν} {m : StateT ν (ExceptT ε (StateM (σ × Nat))) α}
    (hnotes : ∀ v, P v → Q (g v)) (h : Nests bound E Q m R) :
  Nests bound E P (modify g >>= fun _ => m) R
  := fun v u hv hu => h (g v) u (hnotes v hv) hu

/-- A rule can be asked for by calls that are nested within the bound. -/
theorem asked {panel : Panel σ} {nesting : Nat} {m : StateT ν (ExceptT ε (StateM (σ × Nat))) α}
    (hnesting : nesting ≤ bound) (h : Nests bound E P m Q) :
  Nests bound E P (Rule.display ((Rule.Instrument.gauge panel).asked nesting) >>= fun _ => m) Q
  := fun v u hv hu => h v (u.1, max u.2 nesting) hv (Nat.max_le.mpr ⟨hu, hnesting⟩)

/-- A rule can be begun. -/
theorem begun {panel : Panel σ} {index : Nat} {m : StateT ν (ExceptT ε (StateM (σ × Nat))) α}
    (h : Nests bound E P m Q) :
  Nests bound E P (Rule.display ((Rule.Instrument.gauge panel).begun index) >>= fun _ => m) Q
  := h

/-- A computation without notes leaves them, and the gauge, when it is alike one without a
gauge. -/
theorem lift {m : ExceptT ε (StateM (σ × Nat)) α} {m' : ExceptT ε (StateM σ) α}
    (halike : AlikeExcept (fun u s => u.1 = s ∧ u.2 ≤ bound) m m')
    (h : ∀ s, FailsOnly E (m'.run.run s).1) :
  Nests bound E P (StateT.lift m) P
  := by
  intro v u hv hu
  obtain ⟨hresult, _, hbound⟩ := halike u u.1 ⟨rfl, hu⟩
  have hfails := h u.1
  rw [← hresult] at hfails
  rw [lift_run]
  refine ⟨hbound, ?_⟩
  revert hfails
  cases (m.run.run u).1 with
  | error e => exact id
  | ok a => exact fun _ => hv

/-- Formulas and lists of computations leave what their parts leave. -/
theorem isCongruence :
  IsCongruence fun m _ : StateT ν (ExceptT ε (StateM (σ × Nat))) Bool => Nests bound E P m P
  where
  pure _ := Nests.pure fun _ => id
  bind := Nests.bind

/-- Dropping the notes leaves the gauge and the errors. -/
theorem run' {m : StateT ν (ExceptT ε (StateM (σ × Nat))) α} (hm : Nests bound E P m Q) {v : ν}
    (hv : P v) {u : σ × Nat} (hu : u.2 ≤ bound) :
  ((m.run' v).run.run u).2.2 ≤ bound ∧ FailsOnly E ((m.run' v).run.run u).1
  := by
  obtain ⟨hbound, hend⟩ := hm v u hv hu
  rw [run'_run]
  refine ⟨hbound, ?_⟩
  revert hend
  cases ((m.run v).run.run u).1 with
  | error e => exact id
  | ok y => exact fun _ => trivial

end Nests

namespace Rule

variable {rules : List Rule} {stack : List Nat} {i : Nat}

/-! ### Stacks -/

/-- The rules on a stack have asked for each other in turn, from a top-level rule to the one on top,
which asks for the rule at an index. None of them is on the stack twice. -/
inductive Descends (rules : List Rule) : List Nat → Nat → Prop
  | top {i : Nat} (h : IsTop rules i) : Descends rules [] i
  | push {stack : List Nat} {i j : Nat} (h : Descends rules stack i) (hnot : i ∉ stack)
      (hij : Refers rules i j) : Descends rules (i :: stack) j

namespace Descends

/-- What is asked for is a rule, when operands are in range. -/
theorem index_lt (h : Descends rules stack i) (hin : InRange rules) :
  i < rules.length
  := by
  cases h with
  | top h => exact h.1
  | push _ _ hij => exact hin _ _ hij

/-- No rule is on the stack twice. -/
theorem nodup (h : Descends rules stack i) :
  stack.Nodup
  := by
  induction h with
  | top => exact List.nodup_nil
  | push _ hnot _ ih => exact List.nodup_cons.mpr ⟨hnot, ih⟩

/-- A rule on the stack depends on the rule that is asked for. -/
theorem transGen (h : Descends rules stack i) {j : Nat} (hj : j ∈ stack) :
  Relation.TransGen (Refers rules) j i
  := by
  induction h with
  | top => contradiction
  | push _ _ hij ih =>
      rcases List.mem_cons.mp hj with rfl | hj
      · exact .single hij
      · exact (ih hj).tail hij

/-- A stack is no higher than the number of rules. -/
theorem length_le (h : Descends rules stack i) :
  stack.length ≤ rules.length
  := by
  apply length_le_of_nodup h.nodup
  intro j hj
  obtain ⟨k, hjk, _⟩ := Relation.TransGen.head'_iff.mp (h.transGen hj)
  apply hjk.lt

/-- The rules on the stack and the one asked for are a walk, backwards. -/
theorem isChain (h : Descends rules stack i) :
  (i :: stack).IsChain fun j k => Refers rules k j
  := by
  induction h with
  | top => exact List.isChain_singleton _
  | push _ _ hij ih => exact List.isChain_cons_cons.mpr ⟨hij, ih⟩

/-- The walk begins at a top-level rule. -/
theorem exists_top (h : Descends rules stack i) :
  ∃ k, (i :: stack).getLast? = some k ∧ IsTop rules k
  := by
  induction h with
  | @top i h => exact ⟨i, rfl, h⟩
  | push _ _ _ ih => rwa [List.getLast?_cons_cons]

end Descends

/-- The rules noted as being evaluated are those on a stack. -/
def Stacked {n : Nat} (stack : List Nat) (marks : Vector Mark n) : Prop :=
  ∀ (i : Nat) (h : i < n), marks[i] = .visiting ↔ i ∈ stack

namespace Stacked

variable {n : Nat} {marks : Vector Mark n}

/-- At first nothing is noted. -/
theorem start :
  Stacked [] (Vector.replicate n .pending)
  := by
  intro i hi
  simp

/-- A rule that is marked is put on the stack. -/
theorem visit (h : Stacked stack marks) (hi : i < n) :
  Stacked (i :: stack) (marks.set i .visiting)
  := by
  intro j hj
  rw [Vector.getElem_set, List.mem_cons]
  split
  next hij => exact iff_of_true rfl (.inl hij.symm)
  next hij => rw [h j hj, or_iff_right (Ne.symm hij)]

/-- A rule whose value is noted is taken from the stack. -/
theorem finish (h : Stacked (i :: stack) marks) (hi : i < n) (hnot : i ∉ stack) {x : Bool} :
  Stacked stack (marks.set i (.done x))
  := by
  intro j hj
  rw [Vector.getElem_set]
  split
  next hij => exact iff_of_false nofun (hij ▸ hnot)
  next hij => rw [h j hj, List.mem_cons, or_iff_right (Ne.symm hij)]

end Stacked

end Rule

end DelegatedAccess
