import DelegatedAccess.Rule.Evaluation

/-!
# One step of an evaluation

A rule that is asked for has its value already, or is being evaluated, or is evaluated now:
it is marked, its value is found from the values of its operands, and is noted. How the
value is found does not depend on how operands are asked for. It depends on the clause of the rule,
which is read off its operator and its selector.

A logic rule asks for its operands one after the other, and so does a sequence for its top-level
rules. Hence a relation between computations that keeps to their parts relates evaluations when it
relates what is asked for.
-/

namespace DelegatedAccess

/-! ### Formulas -/

/-- How a logic rule goes on once its first operand has a value: it has a value itself, or it asks
for another operand and makes its own value of that. -/
inductive Next (ι : Type) where
  | settled (value : Bool)
  | ask (operand : ι) (value : Bool → Bool)

/-- How a logic rule with a connective goes on once its first operand has a value, with two other
operands. -/
def Connective.next {ι : Type} (k : Connective) (x : Bool) (b c : ι) : Next ι :=
  match k, x with
  | .not, x => .settled !x
  | .and, true => .ask b id
  | .and, false => .settled false
  | .or, true => .settled true
  | .or, false => .ask b id
  | .xor, x => .ask b (x ^^ ·)
  | .ifElse, true => .ask b id
  | .ifElse, false => .ask c id

/-- Other names for the operands. -/
def Next.map {ι κ : Type} (g : ι → κ) : Next ι → Next κ
  | .settled value => .settled value
  | .ask operand value => .ask (g operand) value

/-- How a logic rule goes on does not depend on the names of the operands. -/
theorem Connective.next_map {ι κ : Type} (k : Connective) (g : ι → κ) (x : Bool) (b c : ι) :
  k.next x (g b) (g c) = (k.next x b c).map g
  := by
  cases k <;> cases x <;> rfl

/-- What a formula asks for first is one of its operands. -/
theorem Connective.mem_operands {ι : Type} (k : Connective) (a b c : ι) :
  a ∈ (k.formula a b c).operands
  := by
  cases k <;> simp [formula, Formula.operands]

/-- What a formula asks for next is one of its operands. -/
theorem Connective.mem_operands_of_next {ι : Type} {k : Connective} {a b c j : ι} {x : Bool}
    {f : Bool → Bool} (h : k.next x b c = .ask j f) :
  j ∈ (k.formula a b c).operands
  := by
  cases k <;> cases x <;> simp_all [next, formula, Formula.operands]

/-- A formula asks for its first operand, and then goes on. -/
theorem Connective.evalM_formula {ι : Type} {m : Type → Type} [Monad m] [LawfulMonad m]
    (k : Connective) (a b c : ι) (ask : ι → m Bool) :
  (k.formula a b c).evalM ask = (do
    let x ← ask a
    match k.next x b c with
    | .settled value => return value
    | .ask j f => return f (← ask j))
  := by
  cases k with
  | not => rfl
  | xor => rfl
  | and =>
      apply bind_congr
      intro x
      cases x <;> simp [next]
  | or =>
      apply bind_congr
      intro x
      cases x <;> simp [next]
  | ifElse =>
      apply bind_congr
      intro x
      cases x <;> simp [next]

/-! ### Relations between computations -/

/-- A relation between computations of truth values is a congruence when it relates results to
themselves, and computations in two parts when it relates the parts. -/
structure IsCongruence {m m' : Type → Type} [Monad m] [Monad m'] (R : m Bool → m' Bool → Prop) :
    Prop where
  pure : ∀ x, R (Pure.pure x) (Pure.pure x)
  bind : ∀ {c : m Bool} {c' : m' Bool} {f : Bool → m Bool} {f' : Bool → m' Bool},
    R c c' → (∀ x, R (f x) (f' x)) → R (c >>= f) (c' >>= f')

namespace IsCongruence

variable {ι : Type} {m m' : Type → Type} [Monad m] [Monad m'] {R : m Bool → m' Bool → Prop}

/-- Formulas are related when their operands are. -/
theorem evalM (hR : IsCongruence R) (φ : Formula ι) (ask : ι → m Bool) (ask' : ι → m' Bool)
    (h : ∀ j ∈ φ.operands, R (ask j) (ask' j)) :
  R (φ.evalM ask) (φ.evalM ask')
  := by
  cases φ with
  | not a =>
      apply hR.bind (h a (by simp [Formula.operands]))
      intro x
      apply hR.pure
  | and a b =>
      apply hR.bind (h a (by simp [Formula.operands]))
      intro x
      cases x with
      | true => exact h b (by simp [Formula.operands])
      | false => apply hR.pure
  | or a b =>
      apply hR.bind (h a (by simp [Formula.operands]))
      intro x
      cases x with
      | true => apply hR.pure
      | false => exact h b (by simp [Formula.operands])
  | xor a b =>
      apply hR.bind (h a (by simp [Formula.operands]))
      intro x
      apply hR.bind (h b (by simp [Formula.operands]))
      intro y
      apply hR.pure
  | ifElse a b c =>
      apply hR.bind (h a (by simp [Formula.operands]))
      intro x
      cases x with
      | true => exact h b (by simp [Formula.operands])
      | false => exact h c (by simp [Formula.operands])

/-- Whether all of a list pass is related when it is for each. -/
theorem allM (hR : IsCongruence R) (is : List ι) (ask : ι → m Bool) (ask' : ι → m' Bool)
    (h : ∀ i ∈ is, R (ask i) (ask' i)) :
  R (is.allM ask) (is.allM ask')
  := by
  induction is with
  | nil => apply hR.pure
  | cons i is ih =>
      obtain ⟨hi, his⟩ := List.forall_mem_cons.mp h
      apply hR.bind hi
      intro x
      cases x with
      | true => exact ih his
      | false => apply hR.pure

variable {S : m Bool → m Bool → Prop} {ask : ι → m Bool}

/-- Formulas are related to themselves when their operands are. -/
theorem evalM_self (hS : IsCongruence S) {φ : Formula ι}
    (h : ∀ j ∈ φ.operands, S (ask j) (ask j)) :
  S (φ.evalM ask) (φ.evalM ask)
  := hS.evalM φ ask ask h

/-- Whether all of a list pass is related to itself when it is for each. -/
theorem allM_self (hS : IsCongruence S) {is : List ι} (h : ∀ i ∈ is, S (ask i) (ask i)) :
  S (is.allM ask) (is.allM ask)
  := hS.allM is ask ask h

end IsCongruence

/-! ### Computations that may fail -/

/-- What comes after a computation goes on from the state that is left, unless that failed. -/
theorem seq_run {σ α β ε : Type} (m : ExceptT ε (StateM σ) α) (f : α → ExceptT ε (StateM σ) β)
    (s : σ) :
  (m >>= f).run.run s =
    match m.run.run s with
    | (.error e, t) => (.error e, t)
    | (.ok a, t) => (f a).run.run t
  := by
  have hbind : (m >>= f).run.run s =
      StateT.run (ExceptT.bindCont f (m.run.run s).1) (m.run.run s).2 := rfl
  rw [hbind]
  rcases m.run.run s with ⟨_ | a, t⟩ <;> rfl

/-- A result that is wrapped leaves the state as the result does. -/
theorem return_run {σ α β ε : Type} (m : ExceptT ε (StateM σ) α) (f : α → β) (s : σ) :
  (do return f (← m) : ExceptT ε (StateM σ) β).run.run s =
    ((m.run.run s).1.map f, (m.run.run s).2)
  := by
  rw [seq_run]
  rcases m.run.run s with ⟨_ | a, t⟩ <;> rfl

/-- A computation without notes leaves the notes. -/
theorem lift_run {σ ν α ε : Type} (m : ExceptT ε (StateM σ) α) (v : ν) (s : σ) :
  ((StateT.lift m : StateT ν (ExceptT ε (StateM σ)) α).run v).run.run s =
    ((m.run.run s).1.map fun a => (a, v), (m.run.run s).2)
  := return_run m (fun a => (a, v)) s

/-- A computation goes on from the notes and the state that the one before it has left, unless that
failed. -/
theorem bind_run {σ ν α β ε : Type} (m : StateT ν (ExceptT ε (StateM σ)) α)
    (f : α → StateT ν (ExceptT ε (StateM σ)) β) (v : ν) (s : σ) :
  ((m >>= f).run v).run.run s =
    match (m.run v).run.run s with
    | (.error e, t) => (.error e, t)
    | (.ok (a, w), t) => ((f a).run w).run.run t
  := by
  rw [StateT.run_bind, seq_run]
  rcases (m.run v).run.run s with ⟨_ | ⟨a, w⟩, t⟩ <;> rfl

/-- The notes can be dropped in the end. -/
theorem run'_run {σ ν α ε : Type} (m : StateT ν (ExceptT ε (StateM σ)) α) (v : ν) (s : σ) :
  (m.run' v).run.run s = (((m.run v).run.run s).1.map Prod.fst, ((m.run v).run.run s).2)
  := by
  rw [StateT.run'_eq, ExceptT.run_map, StateT.run_map]
  rfl

namespace Rule

variable {σ ν : Type}

/-! ### What rules say -/

/-- What a selector selects, apart from the logic selector. -/
inductive Selects (k : UInt8) : Source → Prop
  | argument (h : k ≤ lastArgument) : Selects k (.argument k)
  | height (h : k = heightSelector) : Selects k .height
  | timestamp (h : k = timestampSelector) : Selects k .timestamp
  | oracle (h : k = oracleSelector) : Selects k .oracle
  | ownValue (h : k = ownValueSelector) : Selects k .ownValue
  | reserved (hargument : ¬ k ≤ lastArgument) (hheight : k ≠ heightSelector)
      (htimestamp : k ≠ timestampSelector) (horacle : k ≠ oracleSelector)
      (hown : k ≠ ownValueSelector) : Selects k (.reserved k)

/-- The source of a selector is what it selects. -/
theorem selects_ofSelector (k : UInt8) :
  Selects k (Source.ofSelector k)
  := by
  rw [Source.ofSelector]
  by_cases hargument : k ≤ lastArgument
  · rw [if_pos hargument]
    exact Selects.argument hargument
  rw [if_neg hargument]
  by_cases hheight : k = heightSelector
  · rw [if_pos hheight]
    exact Selects.height hheight
  rw [if_neg hheight]
  by_cases htimestamp : k = timestampSelector
  · rw [if_pos htimestamp]
    exact Selects.timestamp htimestamp
  rw [if_neg htimestamp]
  by_cases horacle : k = oracleSelector
  · rw [if_pos horacle]
    exact Selects.oracle horacle
  rw [if_neg horacle]
  by_cases hown : k = ownValueSelector
  · rw [if_pos hown]
    exact Selects.ownValue hown
  rw [if_neg hown]
  exact Selects.reserved hargument hheight htimestamp horacle hown

/-- What a rule says, by its operator and its selector. -/
inductive Says (r : Rule) : Except Defect Clause → Prop
  | unknown (hop : r.operator? = none) : Says r (.error .unknownOperator)
  | misplaced {op : Operator} (hop : r.operator? = some op)
      (hmix : ¬ (op.isLogic = true ↔ r.selector = logicSelector)) :
      Says r (.error .misplacedLogic)
  | test {c : Comparison} (hop : r.operator? = some (.compare c))
      (hselector : r.selector ≠ logicSelector) :
      Says r (.ok (.test (Source.ofSelector r.selector) c))
  | combine {k : Connective} (hop : r.operator? = some (.connect k))
      (hselector : r.selector = logicSelector) :
      Says r (.ok (.combine (k.formula (unpack r.value).1 (unpack r.value).2.1
        (unpack r.value).2.2)))

/-- The clause of a rule is what the rule says. -/
theorem says_clause (r : Rule) :
  Says r r.clause
  := by
  rw [clause]
  cases hop : r.operator? with
  | none => exact Says.unknown hop
  | some op =>
      cases op with
      | compare c =>
          by_cases hselector : r.selector = logicSelector
          · dsimp only
            rw [if_pos hselector]
            exact Says.misplaced hop fun hmix => nomatch hmix.mpr hselector
          · dsimp only
            rw [if_neg hselector]
            exact Says.test hop hselector
      | connect k =>
          by_cases hselector : r.selector = logicSelector
          · dsimp only
            rw [if_pos hselector]
            exact Says.combine hop hselector
          · dsimp only
            rw [if_neg hselector]
            exact Says.misplaced hop fun hmix => hselector (hmix.mp rfl)

/-! ### Steps -/

/-- The value of a rule at an index when its operands are asked for in some way. -/
def valueBy (panel : Panel σ) (req : Request) (index : Nat) (r : Rule)
    (ask : BitVec 32 → StateT ν (ExceptT RuleError (StateM σ)) Bool) :
    StateT ν (ExceptT RuleError (StateM σ)) Bool :=
  match r.clause with
  | .error .unknownOperator => throw (.unknownOperator index r.code)
  | .error .misplacedLogic => throw (.misplacedLogic index)
  | .ok (.test source c) => StateT.lift (test panel req index r source c)
  | .ok (.combine f) => f.evalM ask

/-- A test comes to the comparison of what is selected, and does nothing else. -/
theorem test_run_eq (panel : Panel σ) (req : Request) (i : Nat) (r : Rule) (source : Source)
    (c : Comparison) (s : σ) :
  (test panel req i r source c).run.run s =
    (((select panel req i r source).run.run s).1.map fun x => c.holds x.1 x.2,
      ((select panel req i r source).run.run s).2)
  := return_run (select panel req i r source) (fun x => c.holds x.1 x.2) s

/-- A rule of the sequence is looked up, and evaluated if nothing is known about it. -/
theorem evalAt_of_lt {rules : List Rule} (panel : Panel σ) (req : Request)
    (limit budget source : Nat) {index : Nat} (h : index < rules.length) :
  evalAt rules panel req limit (budget + 1) source index = (do
    match (← get)[index] with
    | .done value => return value
    | .visiting => throw (.cycle index)
    | .pending =>
        modify (·.set index .visiting)
        let value ← valueBy panel req index rules[index] fun j =>
          evalAt rules panel req limit budget index j.toNat
        modify (·.set index (.done value))
        return value)
  := by
  rw [evalAt, dif_pos h]
  apply bind_congr
  intro marks
  cases marks[index] with
  | done value => rfl
  | visiting => rfl
  | pending =>
      apply bind_congr
      intro _
      dsimp only
      rw [valueBy]
      cases rules[index].clause with
      | error defect => cases defect <;> rfl
      | ok clause => cases clause <;> rfl

/-- An index beyond the sequence is no rule. -/
theorem evalAt_of_le {rules : List Rule} (panel : Panel σ) (req : Request)
    (limit budget source : Nat) {index : Nat} (h : rules.length ≤ index) :
  evalAt rules panel req limit (budget + 1) source index =
    throw (.operandOutOfRange source index rules.length)
  := by
  rw [evalAt, dif_neg (Nat.not_lt.mpr h)]

end Rule

end DelegatedAccess
