import DelegatedAccess.Proofs.Rule.Evaluation

/-!
# Evaluations with an instrument

An evaluation can be observed with an instrument. It is told when a rule is asked for and when a
rule is begun, and each rule consults the oracles through it. What it displays is kept with the
state of the oracles.

The main result of this module is that an evaluation with an instrument that displays nothing is
just the evaluation.
-/

namespace DelegatedAccess.Rule

variable {σ ρ ν ε α : Type}

/-- How an evaluation is observed. -/
structure Instrument (ρ : Type) where
  /-- A rule is asked for, by a call that is the last of a number of nested ones. -/
  asked : (nesting : Nat) → ρ → ρ
  /-- The rule at an index is begun. -/
  begun : (index : Nat) → ρ → ρ
  /-- The oracles that the rule at an index consults. -/
  panel : (index : Nat) → Panel ρ

/-- An instrument that displays nothing. -/
def Instrument.blank (panel : Panel σ) : Instrument σ where
  asked _ := id
  begun _ := id
  panel _ := panel

/-- Changes what is displayed. -/
def display (f : ρ → ρ) : StateT ν (ExceptT ε (StateM ρ)) PUnit :=
  fun v u => (.ok (⟨⟩, v), f u)

/-- Nothing happens when what is displayed stays the same. -/
theorem display_id_bind (m : StateT ν (ExceptT ε (StateM ρ)) α) :
  (display id >>= fun _ => m) = m
  := rfl

/-- The value of the rule at an index, which is asked for by the last of a number of nested calls,
found under an instrument. -/
def measureAt (ins : Instrument ρ) (rules : List Rule) (req : Request) (limit : Nat) :
    (budget : Nat) → (nesting source index : Nat) →
    StateT (Vector Mark rules.length) (ExceptT RuleError (StateM ρ)) Bool
  | 0, nesting, _, _ => do
      display (ins.asked nesting)
      throw (.depthExceeded limit)
  | budget + 1, nesting, source, index => do
      display (ins.asked nesting)
      if h : index < rules.length then
        match (← get)[index] with
        | .done value => return value
        | .visiting => throw (.cycle index)
        | .pending =>
            modify (·.set index .visiting)
            display (ins.begun index)
            let value ← valueBy (ins.panel index) req index rules[index] fun j =>
              measureAt ins rules req limit budget (nesting + 1) index j.toNat
            modify (·.set index (.done value))
            return value
      else throw (.operandOutOfRange source index rules.length)

/-- Whether a sequence passes for a request, found under an instrument. The call for a top-level
rule is nested in no other. -/
def measureAll (ins : Instrument ρ) (rules : List Rule) (req : Request) (limit : Nat) :
    ExceptT RuleError (StateM ρ) Bool :=
  match roots rules with
  | .error e => throw e
  | .ok roots =>
      let passes (i : Fin rules.length) := measureAt ins rules req limit (limit + 1) 1 i i
      StateT.run' (roots.allM passes) (Vector.replicate rules.length .pending)

/-- With nothing displayed, a rule is just evaluated. -/
theorem measureAt_blank (panel : Panel σ) (rules : List Rule) (req : Request)
    (limit budget nesting source index : Nat) :
  measureAt (.blank panel) rules req limit budget nesting source index =
    evalAt rules panel req limit budget source index
  := by
  induction budget generalizing nesting source index with
  | zero => rfl
  | succ budget ih =>
      rw [measureAt, Instrument.blank, display_id_bind]
      rcases Nat.lt_or_ge index rules.length with hindex | hindex
      · rw [dif_pos hindex, evalAt_of_lt _ _ _ _ _ hindex]
        apply bind_congr
        intro marks
        cases marks[index] with
        | done value => rfl
        | visiting => rfl
        | pending =>
            dsimp only
            rw [display_id_bind, ← funext fun j : BitVec 32 => ih (nesting + 1) index j.toNat]
            rfl
      · rw [dif_neg (Nat.not_lt.mpr hindex), evalAt_of_le _ _ _ _ _ hindex]

/-- With nothing displayed, a sequence is just evaluated. -/
theorem measureAll_blank (panel : Panel σ) (rules : List Rule) (req : Request) (limit : Nat) :
  measureAll (.blank panel) rules req limit = evaluate rules panel req limit
  := by
  rw [measureAll, evaluate]
  cases roots rules with
  | error e => rfl
  | ok roots => simp only [measureAt_blank]

end DelegatedAccess.Rule
