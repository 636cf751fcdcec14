import DelegatedAccess.Proofs.Rule.Evaluation
import DelegatedAccess.Proofs.Rule.Order

/-!
# The notes of evaluations

What computations that keep notes may come to, and what the notes of an evaluation are like. A
rule that is done has a value that it may come to, and the rules that are being evaluated are
those on the stack, the ranks of which are above that of the rule asked for. Hence a rule that is
asked for is never being evaluated, whatever the oracles answer.

The main result of this module is that a rule comes to what it may come to, for every property of
results that rules have when their operands have it.
-/

namespace DelegatedAccess

variable {σ ν α β ε : Type}

/-! ### What computations with notes find -/

/-- From notes with one property a computation comes to a result or an error as specified, and
leaves notes with another property if it does not fail. -/
def Finds (P : ν → Prop) (m : StateT ν (ExceptT ε (StateM σ)) α) (W : Except ε α → Prop)
    (Q : ν → Prop) : Prop :=
  ∀ v s, P v →
    match ((m.run v).run.run s).1 with
    | .error e => W (.error e)
    | .ok (a, v') => W (.ok a) ∧ Q v'

namespace Finds

variable {P Q R : ν → Prop}

/-- A result is found. -/
theorem pure {W : Except ε α → Prop} {a : α} (h : W (.ok a)) (hnotes : ∀ v, P v → Q v) :
  Finds P (Pure.pure a : StateT ν (ExceptT ε (StateM σ)) α) W Q
  := fun _ _ hv => ⟨h, hnotes _ hv⟩

/-- A failure is found. -/
theorem throw {W : Except ε α → Prop} {e : ε} (h : W (.error e)) :
  Finds P (MonadExcept.throw e : StateT ν (ExceptT ε (StateM σ)) α) W Q
  := fun _ _ _ => h

/-- What comes after a computation finds what is specified when it does so from everything
that the computation may find. -/
theorem bind {m : StateT ν (ExceptT ε (StateM σ)) α} {f : α → StateT ν (ExceptT ε (StateM σ)) β}
    {W : Except ε α → Prop} {U : Except ε β → Prop} (hm : Finds P m W Q)
    (herror : ∀ e, W (.error e) → U (.error e)) (hok : ∀ a, W (.ok a) → Finds Q (f a) U R) :
  Finds P (m >>= f) U R
  := by
  intro v s hv
  have h := hm v s hv
  rw [bind_run]
  revert h
  generalize (m.run v).run.run s = x
  obtain ⟨x, t⟩ := x
  cases x with
  | error e => apply herror
  | ok y =>
      rintro ⟨ha, hv'⟩
      apply hok y.1 ha y.2 t hv'

/-- The notes can be read. -/
theorem get {f : ν → StateT ν (ExceptT ε (StateM σ)) α} {W : Except ε α → Prop}
    (h : ∀ v, P v → Finds (fun u => u = v) (f v) W Q) :
  Finds P (MonadState.get >>= f) W Q
  := fun v s hv => h v hv v s rfl

/-- The notes can be changed. -/
theorem modify {g : ν → ν} {m : StateT ν (ExceptT ε (StateM σ)) α} {W : Except ε α → Prop}
    (hnotes : ∀ v, P v → Q (g v)) (h : Finds Q m W R) :
  Finds P (modify g >>= fun _ => m) W R
  := fun v s hv => h (g v) s (hnotes v hv)

/-- What is found may be specified more loosely. -/
theorem mono {m : StateT ν (ExceptT ε (StateM σ)) α} {W U : Except ε α → Prop}
    (hm : Finds P m W Q) (h : ∀ x, W x → U x) :
  Finds P m U Q
  := by
  intro v s hv
  have hfound := hm v s hv
  revert hfound
  cases ((m.run v).run.run s).1 with
  | error e => apply h
  | ok y => exact fun hy => ⟨h (.ok y.1) hy.1, hy.2⟩

/-- A computation without notes is found when each of its outcomes is. -/
theorem lift {m : ExceptT ε (StateM σ) α} {W : Except ε α → Prop}
    (h : ∀ s, W (m.run.run s).1) :
  Finds P (StateT.lift m) W P
  := by
  intro v s hv
  have hm := h s
  rw [lift_run]
  revert hm
  cases (m.run.run s).1 with
  | error e => exact id
  | ok a => exact fun ha => ⟨ha, hv⟩

/-- Dropping the notes leaves what is found. -/
theorem run' {m : StateT ν (ExceptT ε (StateM σ)) α} {W : Except ε α → Prop}
    (hm : Finds P m W Q) {v : ν} (hv : P v) (s : σ) :
  W ((m.run' v).run.run s).1
  := by
  have hfound := hm v s hv
  rw [run'_run]
  revert hfound
  cases ((m.run v).run.run s).1 with
  | error e => exact id
  | ok y => exact And.left

end Finds

/-! ### Notes of rules -/

namespace Rule

/-- A rule about which nothing is noted, once a rule is marked, is another one, and nothing was
noted about it before. -/
theorem pending_of_set {n : Nat} {marks : Vector Mark n} {i j : Nat} {hi : i < n} {hj : j < n}
    {m : Mark} (h : (marks.set i m)[j] = .pending) (hm : m ≠ .pending) :
  i ≠ j ∧ marks[j] = .pending
  := by
  rw [Vector.getElem_set] at h
  split at h
  next => contradiction
  next hij => exact ⟨hij, h⟩

/-- A stack of different rules is no higher than the number of rules. -/
theorem length_le_of_nodup {n : Nat} {stack : List Nat} (hnodup : stack.Nodup)
    (hlt : ∀ j ∈ stack, j < n) :
  stack.length ≤ n
  := by
  have hsubset : stack ⊆ List.range n := fun j hj => List.mem_range.mpr (hlt j hj)
  simpa using (hnodup.subperm hsubset).length_le

/-- The notes of an evaluation conform to what the rules may come to and to a stack: what is noted
as the value of a rule is one it may come to, and what is noted as being evaluated is on the
stack. -/
structure Marked {n : Nat} (V : Nat → Except RuleError Bool → Prop) (stack : List Nat)
    (marks : Vector Mark n) : Prop where
  done : ∀ (i : Nat) (h : i < n) (x : Bool), marks[i] = .done x → V i (.ok x)
  visiting : ∀ (i : Nat) (h : i < n), marks[i] = .visiting → i ∈ stack

namespace Marked

variable {n : Nat} {V : Nat → Except RuleError Bool → Prop} {stack : List Nat}
  {marks : Vector Mark n}

/-- At first nothing is noted. -/
theorem start :
  Marked V [] (Vector.replicate n .pending)
  := by
  constructor
  · intro i hi x hx
    rw [Vector.getElem_replicate] at hx
    contradiction
  · intro i hi hx
    rw [Vector.getElem_replicate] at hx
    contradiction

/-- What rules may come to can be said more loosely. -/
theorem mono (h : Marked V stack marks) {U : Nat → Except RuleError Bool → Prop}
    (hVU : ∀ i x, V i x → U i x) :
  Marked U stack marks
  where
  done i hi x hx := hVU i _ (h.done i hi x hx)
  visiting := h.visiting

/-- A rule that is marked is put on the stack. -/
theorem visit (h : Marked V stack marks) {i : Nat} (hi : i < n) :
  Marked V (i :: stack) (marks.set i .visiting)
  where
  done j hj x hx := by
    rw [Vector.getElem_set] at hx
    split at hx
    · contradiction
    · apply h.done j hj x hx
  visiting j hj hx := by
    rw [Vector.getElem_set] at hx
    split at hx
    next hij => exact hij ▸ List.mem_cons_self
    next => apply List.mem_cons_of_mem i (h.visiting j hj hx)

/-- A rule whose value is noted is taken from the stack. -/
theorem finish {i : Nat} (h : Marked V (i :: stack) marks) (hi : i < n) {x : Bool}
    (hx : V i (.ok x)) :
  Marked V stack (marks.set i (.done x))
  where
  done j hj y hy := by
    rw [Vector.getElem_set] at hy
    split at hy
    next hij =>
      obtain rfl := Mark.done.inj hy
      exact hij ▸ hx
    next => apply h.done j hj y hy
  visiting j hj hy := by
    rw [Vector.getElem_set] at hy
    split at hy
    · contradiction
    next hij => apply List.mem_of_ne_of_mem (Ne.symm hij) (h.visiting j hj hy)

end Marked

/-- Rules come to what a property of results says when their operands do. -/
def Carries (rules : List Rule) (panel : Panel σ) (req : Request)
    (V : Nat → Except RuleError Bool → Prop) : Prop :=
  ∀ (P : Vector Mark rules.length → Prop) (i : Nat) (r : Rule)
    (ask : BitVec 32 → StateT (Vector Mark rules.length) (ExceptT RuleError (StateM σ)) Bool),
    rules[i]? = some r → (∀ j ∈ r.operands, Finds P (ask j) (V j.toNat) P) →
      Finds P (valueBy panel req i r ask) (V i) P

/-- A rule that is asked for comes to what it may come to, when the rules on the stack have higher
ranks. The budget is above the rank of the rule, or every rule may come to too deep an
evaluation. -/
theorem Carries.finds_evalAt {rules : List Rule} {panel : Panel σ} {req : Request}
    {V : Nat → Except RuleError Bool → Prop} (hcarries : Carries rules panel req V)
    {rank : Nat → Nat} (hrank : RankedBy rules rank) {limit budget : Nat} (source : Nat) {i : Nat}
    (hi : i < rules.length) {stack : List Nat} (hstack : ∀ j ∈ stack, rank i < rank j)
    (hbudget : rank i < budget ∨ ∀ j, V j (.error (.depthExceeded limit))) :
  Finds (Marked V stack) (evalAt rules panel req limit budget source i) (V i) (Marked V stack)
  := by
  induction budget generalizing source i stack with
  | zero =>
      rcases hbudget with hnone | hdeep
      · contradiction
      · apply Finds.throw (hdeep i)
  | succ budget ih =>
      have hr : rules[i]? = some rules[i] := List.getElem?_eq_getElem hi
      -- an operand has a lower rank than the rule, which joins the stack
      have hask : ∀ j ∈ rules[i].operands, Finds (Marked V (i :: stack))
          (evalAt rules panel req limit budget i j.toNat) (V j.toNat) (Marked V (i :: stack)) := by
        intro j hj
        obtain ⟨hlt, hlower⟩ := hrank.2 i _ hr j hj
        apply ih i hlt
        · intro l hl
          rcases List.mem_cons.mp hl with rfl | hl
          · exact hlower
          · apply Nat.lt_trans hlower (hstack l hl)
        · apply hbudget.imp_left
          omega
      rw [evalAt_of_lt _ _ _ _ _ hi]
      apply Finds.get
      intro marks hmarks
      cases hmark : marks[i] with
      | done x =>
          apply Finds.pure (hmarks.done i hi x hmark)
          rintro _ rfl
          exact hmarks
      | visiting => exact absurd (hstack i (hmarks.visiting i hi hmark)) (Nat.lt_irrefl _)
      | pending =>
          apply Finds.modify
          · rintro _ rfl
            apply hmarks.visit
          · apply (hcarries _ i _ _ hr hask).bind fun _ => id
            intro x hx
            apply Finds.modify
            · intro marks' hmarks'
              apply hmarks'.finish hi hx
            · exact Finds.pure hx fun _ => id

end Rule

end DelegatedAccess
