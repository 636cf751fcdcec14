import DelegatedAccess.Proofs.Rule.Marks
import DelegatedAccess.Proofs.Rule.Reference

/-!
# Evaluations find what rule sequences mean

An evaluation of an accepted sequence finds the meaning of the sequence, provided that the
depth it may reach is not below the number of rules less one. A rule that is done has the value
noted for it, so that its value is what the sequence means for it, however often it is asked for.
-/

namespace DelegatedAccess

variable {σ ν : Type}

/-! ### Tests -/

/-- A comparison of values is that of their numbers. -/
theorem Comparison.holds_eq (c : Comparison) (v w : Value) :
  c.holds v w = c.test v.toNat w.toNat
  := by
  cases c with
  | never => rfl
  | eq => simp [holds, test, beq_eq_decide, BitVec.toNat_inj]
  | ne => simp [holds, test, bne, beq_eq_decide, BitVec.toNat_inj]
  | gt => rfl
  | lt => rfl
  | ge => rfl
  | le => rfl
  | positive => rfl

/-- A number of 64 bits stays itself in 128 bits. -/
theorem toNat_setWidth (n : UInt64) :
  (n.toBitVec.setWidth 128).toNat = n.toNat
  := by
  have h := n.toNat_lt
  rw [BitVec.toNat_setWidth, Nat.mod_eq_of_lt]
  · rfl
  · exact Nat.lt_trans h (by decide)

namespace Rule

/-- What is selected is what the oracles answer in the state in which they are asked. -/
theorem select_run (panel : Panel σ) (req : Request) (i : Nat) (r : Rule) (s : σ) :
  ((select panel req i r (Source.ofSelector r.selector)).run.run s).1.map
      (fun x => (x.1.toNat, x.2.toNat)) =
    selected (panel.answersAt s) req i r
  := by
  have hselects := selects_ofSelector r.selector
  generalize Source.ofSelector r.selector = source at hselects ⊢
  cases hselects with
  | argument hselector =>
      rw [select, selected, if_pos hselector]
      cases req.question.args[r.selector.toNat]? <;> rfl
  | height hselector =>
      rw [selected, hselector, ← toNat_setWidth]
      rfl
  | timestamp hselector =>
      rw [selected, hselector, ← toNat_setWidth]
      rfl
  | oracle hselector =>
      rw [select, Panel.named?, selected, hselector]
      cases Entity.ofNat? r.value.toNat with
      | none => rfl
      | some e =>
          rw [Option.bind_some, Option.bind_some, Panel.answersAt]
          cases panel e with
          | none => rfl
          | some o =>
              change Except.ok
                  ((if ((o req.question).run s).1 then (1 : Value) else 0).toNat, 1) =
                Except.ok (if ((o req.question).run s).1 then 1 else 0, 1)
              cases ((o req.question).run s).1 <;> rfl
  | ownValue hselector =>
      rw [selected, hselector]
      rfl
  | reserved hargument hheight htimestamp horacle hown =>
      rw [selected, if_neg hargument, if_neg hheight, if_neg htimestamp, if_neg horacle,
        if_neg hown]
      rfl

/-- What a test comes to is what the oracles answer in the state in which they are asked. -/
theorem test_run (panel : Panel σ) (req : Request) (i : Nat) (r : Rule) (c : Comparison) (s : σ) :
  ((test panel req i r (Source.ofSelector r.selector) c).run.run s).1 =
    compared (panel.answersAt s) req i r c
  := by
  rw [test_run_eq, compared, ← select_run panel req i r s]
  cases ((select panel req i r (Source.ofSelector r.selector)).run.run s).1 with
  | error e => rfl
  | ok x =>
      change Except.ok (c.holds x.1 x.2) = Except.ok (c.test x.1.toNat x.2.toNat)
      rw [Comparison.holds_eq]

/-! ### Rules -/

variable {rules : List Rule} {answers : Answers} {req : Request}

/-- A logic rule that is settled by the value of its first operand has the value that it is settled
to. -/
theorem Yields.settled {i a b c : Nat} {k : Connective} {x y : Bool}
    (ha : Yields rules answers req a (.ok x)) (hr : Combines rules i k a b c)
    (hnext : k.next x b c = .settled y) :
  Yields rules answers req i (.ok y)
  := by
  cases k with
  | not =>
      obtain rfl := Next.settled.inj hnext
      exact Yields.not hr ha
  | and =>
      cases x with
      | true => contradiction
      | false =>
          obtain rfl := Next.settled.inj hnext
          exact Yields.andFalse hr ha
  | or =>
      cases x with
      | true =>
          obtain rfl := Next.settled.inj hnext
          exact Yields.orTrue hr ha
      | false => contradiction
  | xor => contradiction
  | ifElse => cases x <;> contradiction

/-- A logic rule that asks for another operand comes to what it makes of the value of that. -/
theorem Yields.resumed {i a b c j : Nat} {k : Connective} {x : Bool} {f : Bool → Bool}
    {z : Except RuleError Bool} (ha : Yields rules answers req a (.ok x))
    (hr : Combines rules i k a b c) (hnext : k.next x b c = .ask j f)
    (hj : Yields rules answers req j z) :
  Yields rules answers req i (z.map f)
  := by
  cases k with
  | not => contradiction
  | and =>
      cases x with
      | true =>
          obtain ⟨rfl, rfl⟩ := Next.ask.inj hnext
          rw [Except.map_id]
          exact Yields.andTrue hr ha hj
      | false => contradiction
  | or =>
      cases x with
      | true => contradiction
      | false =>
          obtain ⟨rfl, rfl⟩ := Next.ask.inj hnext
          rw [Except.map_id]
          exact Yields.orFalse hr ha hj
  | xor =>
      obtain ⟨rfl, rfl⟩ := Next.ask.inj hnext
      cases z with
      | error e => exact Yields.xorFailed hr ha hj
      | ok y => exact Yields.xor hr ha hj
  | ifElse =>
      cases x with
      | true =>
          obtain ⟨rfl, rfl⟩ := Next.ask.inj hnext
          rw [Except.map_id]
          exact Yields.ifTrue hr ha hj
      | false =>
          obtain ⟨rfl, rfl⟩ := Next.ask.inj hnext
          rw [Except.map_id]
          exact Yields.ifFalse hr ha hj

/-- A logic rule comes to what its formula finds when its operands come to what is asked
for. -/
theorem finds_evalM {P : ν → Prop} {i : Nat} {k : Connective} {a b c : BitVec 32}
    {ask : BitVec 32 → StateT ν (ExceptT RuleError (StateM σ)) Bool}
    (hr : Combines rules i k a.toNat b.toNat c.toNat)
    (hask : ∀ j ∈ (k.formula a b c).operands,
      Finds P (ask j) (Yields rules answers req j.toNat) P) :
  Finds P ((k.formula a b c).evalM ask) (Yields rules answers req i) P
  := by
  rw [Connective.evalM_formula]
  apply (hask a (k.mem_operands a b c)).bind
  · intro e he
    apply Yields.failed hr he
  · intro x hx
    have hnat := k.next_map BitVec.toNat x b c
    cases hnext : k.next x b c with
    | settled y =>
        rw [hnext] at hnat
        exact Finds.pure (hx.settled hr hnat) fun _ => id
    | ask j f =>
        rw [hnext] at hnat
        apply (hask j (Connective.mem_operands_of_next hnext)).bind
        · intro e he
          apply hx.resumed hr hnat he
        · intro y hy
          exact Finds.pure (hx.resumed hr hnat hy) fun _ => id

/-- A rule comes to what is found from its operands when they come to what is asked for. -/
theorem finds_valueBy {panel : Panel σ} (h : panel.AnswersAs answers) {P : ν → Prop} {i : Nat}
    {r : Rule} {ask : BitVec 32 → StateT ν (ExceptT RuleError (StateM σ)) Bool}
    (hr : rules[i]? = some r)
    (hask : ∀ j ∈ r.operands, Finds P (ask j) (Yields rules answers req j.toNat) P) :
  Finds P (valueBy panel req i r ask) (Yields rules answers req i) P
  := by
  have hsays := says_clause r
  rw [operands] at hask
  rw [valueBy]
  generalize r.clause = clause at hsays hask ⊢
  cases hsays with
  | unknown hop => apply Finds.throw (Yields.unknown hr hop)
  | misplaced hop hmix => apply Finds.throw (Yields.misplaced hr hop hmix)
  | test hop hselector =>
      apply Finds.lift
      intro s
      rw [test_run, h.answersAt_eq]
      apply Yields.compare hr hop hselector
  | combine hop hselector => apply finds_evalM ⟨r, hr, hop, hselector, rfl, rfl, rfl⟩ hask

/-! ### Notes -/

/-- The notes of an evaluation are consistent with a stack: what is noted as the value of a
rule is its value, and what is noted as being evaluated is on the stack. -/
abbrev Consistent (rules : List Rule) (answers : Answers) (req : Request) (stack : List Nat) :
    Vector Mark rules.length → Prop :=
  Marked (Yields rules answers req) stack

/-! ### Evaluations -/

/-- A rule that is asked for comes to its value, when the rules on the stack have higher ranks
and the budget is above its own. -/
theorem finds_evalAt {panel : Panel σ} (h : panel.AnswersAs answers) {rank : Nat → Nat}
    (hrank : RankedBy rules rank) {limit budget : Nat} (source : Nat) {i : Nat}
    (hi : i < rules.length) {stack : List Nat} (hstack : ∀ j ∈ stack, rank i < rank j)
    (hbudget : rank i < budget) :
  Finds (Consistent rules answers req stack) (evalAt rules panel req limit budget source i)
    (Yields rules answers req i) (Consistent rules answers req stack)
  := by
  have hcarries : Carries rules panel req (Yields rules answers req) :=
    fun P j r ask hr hask => finds_valueBy h hr hask
  apply hcarries.finds_evalAt hrank source hi hstack (.inl hbudget)

/-- The top-level rules are the sources of the graph. -/
theorem map_sources (rules : List Rule) :
  (graph rules).sources.map Fin.val = topLevel rules
  := by
  rw [Graph.sources_eq, topLevel, ← List.map_coe_finRange_eq_range, List.filter_map]
  congr 1
  apply List.filter_congr
  intro i _
  apply decide_eq_decide.mpr
  constructor
  · intro hnot r hr j hj hji
    obtain ⟨u, hu, rfl⟩ := List.getElem_of_mem hr
    apply hnot ⟨u, hu⟩ ((mem_graph_iff rules ⟨u, hu⟩ i).mpr ⟨j, hj, hji⟩)
  · intro hnot u hu
    obtain ⟨j, hj, hji⟩ := (mem_graph_iff rules u i).mp hu
    apply hnot _ (List.getElem_mem u.isLt) j hj hji

/-- Rules that are asked for in turn, until one does not pass, come to whether all pass. -/
theorem finds_allM {panel : Panel σ} (h : panel.AnswersAs answers) {rank : Nat → Nat}
    (hrank : RankedBy rules rank) {limit : Nat} (hlimit : rules.length ≤ limit + 1)
    (is : List (Fin rules.length)) :
  Finds (Consistent rules answers req [])
    (is.allM fun i : Fin rules.length => evalAt rules panel req limit (limit + 1) i i)
    (AllPass rules answers req (is.map Fin.val)) (Consistent rules answers req [])
  := by
  induction is with
  | nil => exact Finds.pure AllPass.nil fun _ => id
  | cons i is ih =>
      have hi : Finds (Consistent rules answers req [])
          (evalAt rules panel req limit (limit + 1) i i) (Yields rules answers req i)
          (Consistent rules answers req []) := by
        apply finds_evalAt h hrank i i.isLt
        · intro j hj
          contradiction
        · apply Nat.lt_of_lt_of_le (hrank.1 i i.isLt) hlimit
      apply hi.bind
      · intro e he
        apply AllPass.failed he
      · intro x hx
        cases x with
        | true => exact ih.mono fun y hy => AllPass.next hx hy
        | false => exact Finds.pure (AllPass.stop hx) fun _ => id

/-- An accepted sequence comes to what it means. -/
theorem passes_evaluate (hcheck : checkStructure rules = .ok ()) {panel : Panel σ}
    (h : panel.AnswersAs answers) {limit : Nat} (hlimit : rules.length ≤ limit + 1) (s : σ) :
  Passes rules answers req ((evaluate rules panel req limit).run.run s).1
  := by
  obtain ⟨hroots, rank, hrank⟩ := of_checkStructure hcheck
  have hstart : Consistent rules answers req [] (Vector.replicate rules.length .pending) :=
    Marked.start
  have hfound : Finds (Consistent rules answers req []) _
      (AllPass rules answers req ((graph rules).sources.map Fin.val)) _ :=
    finds_allM h hrank hlimit (graph rules).sources
  rw [map_sources] at hfound
  rw [evaluate, hroots]
  apply hfound.run' hstart

/-- An evaluation of an accepted sequence comes to what the sequence means, be it a value or
an error, whenever what the oracles answer depends on the question alone and the depth that
may be reached is not below the number of rules less one. It never finds a stray operand, a
rule out of reach, a cycle or too deep a rule. -/
theorem evaluate_correct (hcheck : checkStructure rules = .ok ()) {panel : Panel σ}
    (h : panel.AnswersAs answers) (req : Request) {limit : Nat}
    (hlimit : rules.length ≤ limit + 1) (s : σ) :
  (∀ x, ((evaluate rules panel req limit).run.run s).1 = x ↔ Passes rules answers req x) ∧
    (∀ i j n, ((evaluate rules panel req limit).run.run s).1 ≠ .error (.operandOutOfRange i j n)) ∧
    (∀ i, ((evaluate rules panel req limit).run.run s).1 ≠ .error (.unreachable i)) ∧
    (∀ i, ((evaluate rules panel req limit).run.run s).1 ≠ .error (.cycle i)) ∧
    ∀ d, ((evaluate rules panel req limit).run.run s).1 ≠ .error (.depthExceeded d)
  := by
  have hpasses : Passes rules answers req ((evaluate rules panel req limit).run.run s).1 :=
    passes_evaluate hcheck h hlimit s
  refine ⟨?_, ?_, ?_, ?_, ?_⟩
  · intro x
    constructor
    · rintro rfl
      exact hpasses
    · apply hpasses.unique
  · intro i j n he
    apply hpasses.isLocal he
  · intro i he
    apply hpasses.isLocal he
  · intro i he
    apply hpasses.isLocal he
  · intro d he
    apply hpasses.isLocal he

/-! ### An example -/

/-- Two top-level rules that share their operands: an oracle and a test of an argument. -/
def sharedOperands : List Rule :=
  [.and 2 3, .or 2 3, .oracle ⟨3⟩, .argument 0 (.compare .gt) 5]

/-- Oracles that count how often they are asked. -/
def countingPanel (answers : Answers) : Panel Nat :=
  fun e => (answers e).map fun answer q => do
    modify (· + 1)
    return answer q

/-- Counting does not change the answers. -/
theorem answersAs_countingPanel (answers : Answers) :
  (countingPanel answers).AnswersAs answers
  := by
  intro e
  rw [countingPanel]
  cases answers e with
  | none => apply Option.Rel.none
  | some answer => exact Option.Rel.some fun q s => rfl

/-- An evaluation with shared operands asks the oracle once, and comes to what the sequence
means without such sharing. -/
theorem evaluate_correct_sharedOperands :
  let answers : Answers := fun e => if e = ⟨3⟩ then some fun q => q.args.length = 1 else none
  let req : Request := ⟨⟨⟨7⟩, ⟨.createPermissions, ⟨9⟩⟩, [8]⟩, ⟨0, 0⟩⟩
  checkStructure sharedOperands = .ok () ∧
    ((evaluate sharedOperands (countingPanel answers) req 3).run.run 0).1 = .ok true ∧
    ((evaluate sharedOperands (countingPanel answers) req 3).run.run 0).2 = 1 ∧
    Passes sharedOperands answers req (.ok true)
  := by
  intro answers req
  have hcheck : checkStructure sharedOperands = .ok () := by decide +kernel
  have hrun : ((evaluate sharedOperands (countingPanel answers) req 3).run.run 0).1 = .ok true := by
    decide +kernel
  have hcount : ((evaluate sharedOperands (countingPanel answers) req 3).run.run 0).2 = 1 := by
    decide +kernel
  have hlimit : sharedOperands.length ≤ 3 + 1 := by decide
  obtain ⟨hpasses, _⟩ := evaluate_correct hcheck (answersAs_countingPanel answers) req hlimit 0
  exact ⟨hcheck, hrun, hcount, (hpasses (.ok true)).mp hrun⟩

end Rule

end DelegatedAccess
