import DelegatedAccess.Proofs.Rule.Acceptance
import DelegatedAccess.Proofs.Rule.Evaluation

/-!
# Rules at another place

A sequence can stand inside a longer one, some rules further on, when the operands of its rules
are moved up by as many rules. Its rules are then evaluated as they are by themselves, with the
same notes at their new places, and an error names the rule at its new place.

The main result of this module is that the evaluation of a rule in its place among others does
to the notes on the sequence what its evaluation does in the sequence alone, and nothing to
the other notes.
-/

namespace DelegatedAccess

variable {σ ν μ α β ε ι κ : Type}

/-! ### Formulas with other operands -/

namespace Formula

/-- A formula with other operands. -/
def map (g : ι → κ) : Formula ι → Formula κ
  | not a => not (g a)
  | and a b => and (g a) (g b)
  | or a b => or (g a) (g b)
  | xor a b => xor (g a) (g b)
  | ifElse a b c => ifElse (g a) (g b) (g c)

/-- The operands are replaced in order. -/
theorem operands_map (g : ι → κ) (f : Formula ι) :
  (f.map g).operands = f.operands.map g
  := by
  cases f <;> rfl

/-- To ask for other operands is to ask for the operands in another way. -/
theorem evalM_map {m : Type → Type} [Monad m] (g : ι → κ) (ask : κ → m Bool) (f : Formula ι) :
  (f.map g).evalM ask = f.evalM fun j => ask (g j)
  := by
  cases f <;> rfl

end Formula

/-! ### Rules with their operands moved up -/

/-- A packed value in which the indices that a connective uses are moved up by a number of rules.
The rest of the value is left as it is. -/
def Connective.shift (k : Connective) (n : Nat) (v : Value) : Value :=
  let (a, b, c) := Rule.unpack v
  let up (place : Nat) (j : BitVec 32) := if place < k.arity then j + BitVec.ofNat 32 n else j
  v.extractLsb' 96 32 ++ up 2 c ++ up 1 b ++ up 0 a

/-- What a rule says when its operands are moved up by a number of rules. -/
def Clause.shift (n : Nat) : Clause → Clause
  | test source c => test source c
  | combine f => combine (f.map (· + BitVec.ofNat 32 n))

/-- The error about a rule that comes a number of rules later. -/
def RuleError.shift (n : Nat) : RuleError → RuleError
  | argumentOutOfRange rule index supplied => argumentOutOfRange (n + rule) index supplied
  | unknownOperator rule code => unknownOperator (n + rule) code
  | unknownSelector rule selector => unknownSelector (n + rule) selector
  | operandOutOfRange rule operand length => operandOutOfRange (n + rule) operand length
  | misplacedLogic rule => misplacedLogic (n + rule)
  | depthExceeded limit => depthExceeded limit
  | unreachable rule => unreachable (n + rule)
  | cycle rule => cycle (n + rule)
  | unknownOracle rule oracle => unknownOracle (n + rule) oracle
  | missingRules ref => missingRules ref
  | corrupted ref => corrupted ref

namespace Rule

/-- The rule with its operands moved up by a number of rules. A rule that is no logic rule has
none. -/
def shift (n : Nat) (r : Rule) : Rule :=
  match r.operator? with
  | some (.connect k) =>
      if r.selector = logicSelector then { r with value := k.shift n r.value } else r
  | _ => r

/-- The sequence with all operands moved up by a number of rules. -/
def shiftAll (n : Nat) (rules : List Rule) : List Rule :=
  rules.map (shift n)

/-- Four parts of 32 bits are unpacked into the lower three. -/
theorem unpack_append (d c b a : BitVec 32) :
  unpack (d ++ c ++ b ++ a) = (a, b, c)
  := by
  rw [unpack, BitVec.extractLsb'_append_eq_of_add_le (by decide),
    BitVec.extractLsb'_append_eq_of_le (by decide),
    BitVec.extractLsb'_append_eq_of_add_le (by decide),
    BitVec.extractLsb'_append_eq_of_le (by decide), BitVec.extractLsb'_append_eq_of_le (by decide),
    BitVec.extractLsb'_append_eq_of_add_le (by decide)]
  simp

/-- A value is its highest 32 bits with the indices packed into it. -/
theorem append_unpack (v : Value) :
  v.extractLsb' 96 32 ++ (unpack v).2.2 ++ (unpack v).2.1 ++ (unpack v).1 = v
  := by
  ext i hi
  simp only [unpack, BitVec.getElem_append, BitVec.getElem_extractLsb']
  grind

/-- Operands that are moved up by no rules stay where they are. -/
theorem shift_zero (r : Rule) :
  r.shift 0 = r
  := by
  rw [shift]
  split
  next k _ =>
    have hvalue : k.shift 0 r.value = r.value := by
      rw [Connective.shift]
      simp only [BitVec.add_zero, ite_self, append_unpack]
    rw [hvalue, ite_self]
  next => rfl

/-- The operator of a rule stays. -/
@[simp] theorem code_shift (n : Nat) (r : Rule) :
  (r.shift n).code = r.code
  := by
  grind [shift]

/-- The selector of a rule stays. -/
@[simp] theorem selector_shift (n : Nat) (r : Rule) :
  (r.shift n).selector = r.selector
  := by
  grind [shift]

/-- A formula over operands that are moved up is unpacked from the value with these moved up. -/
theorem formula_shift (k : Connective) (n : Nat) (v : Value) :
  k.formula (unpack (k.shift n v)).1 (unpack (k.shift n v)).2.1 (unpack (k.shift n v)).2.2 =
    (k.formula (unpack v).1 (unpack v).2.1 (unpack v).2.2).map (· + BitVec.ofNat 32 n)
  := by
  rw [Connective.shift, unpack_append]
  cases k <;> rfl

/-- A rule with its operands moved up says what the rule says, of other operands. -/
theorem clause_shift (n : Nat) (r : Rule) :
  (r.shift n).clause = r.clause.map (Clause.shift n)
  := by
  have hop : (r.shift n).operator? = r.operator? := by rw [operator?, code_shift, operator?]
  rw [clause, clause, hop, selector_shift]
  cases hr : r.operator? with
  | none => rfl
  | some op =>
      cases op with
      | compare c =>
          dsimp only
          split <;> rfl
      | connect k =>
          by_cases hselector : r.selector = logicSelector
          · have hvalue : (r.shift n).value = k.shift n r.value := by
              rw [shift, hr]
              dsimp only
              rw [if_pos hselector]
            dsimp only
            rw [if_pos hselector, if_pos hselector, hvalue, formula_shift]
            rfl
          · dsimp only
            rw [if_neg hselector, if_neg hselector]
            rfl

/-- The operands are moved up. -/
theorem operands_shift (n : Nat) (r : Rule) :
  (r.shift n).operands = r.operands.map (· + BitVec.ofNat 32 n)
  := by
  rw [operands, clause_shift, operands]
  cases r.clause with
  | error defect => rfl
  | ok clause =>
      cases clause with
      | test source c => rfl
      | combine f => apply Formula.operands_map

/-- A rule that makes a test stays as it is. -/
theorem shift_of_test {r : Rule} {source : Source} {c : Comparison}
    (h : r.clause = .ok (.test source c)) (n : Nat) :
  r.shift n = r
  := by
  have hsays := says_clause r
  rw [h] at hsays
  cases hsays with
  | test hop _ => rw [shift, hop]

end Rule

/-! ### Errors at another place -/

/-- An error about a rule that comes no rules later is about the rule. -/
theorem RuleError.shift_zero (e : RuleError) :
  e.shift 0 = e
  := by
  cases e <;> simp [shift]

/-! ### Computations with other notes and other errors -/

/-- Other errors do not change what is done. -/
theorem adapt_run (E : ε → ε) (m : ExceptT ε (StateM σ) α) (s : σ) :
  (ExceptT.adapt E m).run.run s = ((m.run.run s).1.mapError E, (m.run.run s).2)
  := rfl

/-- A computation does to some notes what another one does to the notes that they are made of, and
its errors are made of those of the other. It leaves the same state. -/
def Translates (f : ν → μ) (E : ε → ε) (m : StateT ν (ExceptT ε (StateM σ)) α)
    (m' : StateT μ (ExceptT ε (StateM σ)) α) : Prop :=
  ∀ v s, (m'.run (f v)).run.run s =
    match (m.run v).run.run s with
    | (.error e, t) => (.error (E e), t)
    | (.ok (a, w), t) => (.ok (a, f w), t)

namespace Translates

variable {f : ν → μ} {E : ε → ε}

/-- Results are translated to themselves. -/
theorem pure (a : α) :
  Translates f E (Pure.pure a : StateT ν (ExceptT ε (StateM σ)) α) (Pure.pure a)
  := fun _ _ => rfl

/-- Failures are translated as errors are. -/
theorem throw (e : ε) :
  Translates f E (MonadExcept.throw e : StateT ν (ExceptT ε (StateM σ)) α)
    (MonadExcept.throw (E e))
  := fun _ _ => rfl

/-- Computations are translated in their parts. -/
theorem bind {m : StateT ν (ExceptT ε (StateM σ)) α} {m' : StateT μ (ExceptT ε (StateM σ)) α}
    {k : α → StateT ν (ExceptT ε (StateM σ)) β} {k' : α → StateT μ (ExceptT ε (StateM σ)) β}
    (hm : Translates f E m m') (hk : ∀ a, Translates f E (k a) (k' a)) :
  Translates f E (m >>= k) (m' >>= k')
  := by
  intro v s
  rw [bind_run, bind_run, hm v s]
  rcases (m.run v).run.run s with ⟨e | ⟨a, w⟩, t⟩
  · rfl
  · apply hk

/-- The notes can be read. -/
theorem get {k : ν → StateT ν (ExceptT ε (StateM σ)) α} {k' : μ → StateT μ (ExceptT ε (StateM σ)) α}
    (h : ∀ v, Translates f E (k v) (k' (f v))) :
  Translates f E (MonadState.get >>= k) (MonadState.get >>= k')
  := fun v s => h v v s

/-- The notes can be changed. -/
theorem modify {p : ν → ν} {q : μ → μ} (h : ∀ v, q (f v) = f (p v)) :
  Translates f E (modify p : StateT ν (ExceptT ε (StateM σ)) PUnit)
    (modify q : StateT μ (ExceptT ε (StateM σ)) PUnit)
  := by
  intro v s
  change (Except.ok (PUnit.unit, q (f v)), s) = _
  rw [h]
  rfl

/-- A computation without notes is translated in its errors. -/
theorem lift (m : ExceptT ε (StateM σ) α) :
  Translates f E (StateT.lift m) (StateT.lift (ExceptT.adapt E m))
  := by
  intro v s
  rw [lift_run, lift_run, adapt_run]
  cases (m.run.run s).1 <;> rfl

/-- In the end the notes can be dropped. -/
theorem run' {m : StateT ν (ExceptT ε (StateM σ)) α} {m' : StateT μ (ExceptT ε (StateM σ)) α}
    (hm : Translates f E m m') (v : ν) :
  m'.run' (f v) = ExceptT.adapt E (m.run' v)
  := by
  apply ExceptT.ext
  apply StateT.ext
  intro s
  rw [run'_run, hm v s, adapt_run, run'_run]
  rcases (m.run v).run.run s with ⟨e | ⟨a, w⟩, t⟩ <;> rfl

/-- What comes after a computation that is translated may go on without its notes when it does so
from all notes that these are translated to. -/
theorem run'_bind {m : StateT ν (ExceptT ε (StateM σ)) α} {m' : StateT μ (ExceptT ε (StateM σ)) α}
    (hm : Translates f E m m') (hE : ∀ e, E e = e) {k : α → ExceptT ε (StateM σ) β}
    {k' : α → StateT μ (ExceptT ε (StateM σ)) β} (hk : ∀ a w, (k' a).run' (f w) = k a) (v : ν) :
  (m' >>= k').run' (f v) = m.run' v >>= k
  := by
  apply ExceptT.ext
  apply StateT.ext
  intro s
  rw [run'_run, bind_run, hm v s, seq_run, run'_run]
  rcases (m.run v).run.run s with ⟨e | ⟨a, w⟩, t⟩
  · dsimp only
    rw [hE]
    rfl
  · have hrest := run'_run (k' a) (f w) t
    rw [hk a w] at hrest
    exact hrest.symm

/-- Formulas and lists of computations are translated in their parts. -/
theorem isCongruence :
  IsCongruence (Translates f E : StateT ν (ExceptT ε (StateM σ)) Bool →
    StateT μ (ExceptT ε (StateM σ)) Bool → Prop)
  where
  pure := Translates.pure
  bind := Translates.bind

end Translates

namespace Rule

/-! ### Notes at another place -/

/-- Notes on more rules, with notes on some of them put in at a place. -/
def putIn {n l : Nat} (g : Nat) (around : Vector Mark l) (marks : Vector Mark n) :
    Vector Mark l :=
  Vector.ofFn fun (j : Fin l) => if h : g ≤ j ∧ j - g < n then marks[j - g] else around.get j

section

variable {n l g : Nat} {around : Vector Mark l} {marks : Vector Mark n}

/-- What is noted at the place is what was put in, and elsewhere what there was. -/
theorem getElem_putIn_eq {j : Nat} (hj : j < l) :
  (putIn g around marks)[j] = if h : g ≤ j ∧ j - g < n then marks[j - g] else around[j]
  := Vector.getElem_ofFn hj

/-- What is noted at the place is what was put in. -/
theorem getElem_putIn {i : Nat} (hi : i < n) (hplace : g + i < l) :
  (putIn g around marks)[g + i] = marks[i]
  := by
  rw [getElem_putIn_eq, dif_pos ⟨Nat.le_add_right g i, by omega⟩]
  congr 1
  omega

/-- A note made at the place is one made on what is put in. -/
theorem set_putIn {i : Nat} (hi : i < n) (hplace : g + i < l) (m : Mark) :
  (putIn g around marks).set (g + i) m = putIn g around (marks.set i m)
  := by
  apply Vector.ext
  intro j hj
  rw [Vector.getElem_set, getElem_putIn_eq, getElem_putIn_eq]
  by_cases hin : g ≤ j ∧ j - g < n
  · rw [dif_pos hin, dif_pos hin, Vector.getElem_set]
    have hiff : g + i = j ↔ i = j - g := by omega
    simp only [hiff]
  · have hne : g + i ≠ j := by omega
    rw [dif_neg hin, dif_neg hin, if_neg hne]

/-- Where nothing is noted, to put in that nothing is noted makes no difference. -/
theorem putIn_pending (h : ∀ j (hj : j < l), g ≤ j → around[j] = .pending) :
  putIn g around (Vector.replicate n .pending) = around
  := by
  apply Vector.ext
  intro j hj
  rw [getElem_putIn_eq]
  split
  next hin => rw [Vector.getElem_replicate, h j hj hin.1]
  next => rfl

end

/-! ### Rules among others -/

/-- An operand that is a rule of a sequence is moved up to the place of this rule. -/
theorem toNat_add_ofNat {g n : Nat} (hroom : g + n ≤ UInt32.size) {j : BitVec 32}
    (hj : j.toNat < n) :
  (j + BitVec.ofNat 32 g).toNat = g + j.toNat
  := by
  have hsize : g + n ≤ 2 ^ 32 := hroom
  rw [BitVec.toNat_add, BitVec.toNat_ofNat]
  omega

/-- The rules of a sequence, with their operands moved up, follow one another in a longer
sequence. -/
structure Placed (g : Nat) (rules rules' : List Rule) : Prop where
  /-- All operands are rules of the sequence. -/
  inRange : InRange rules
  /-- They are so in the longer one, of which the indices fit in 32 bits. -/
  room : g + rules.length ≤ UInt32.size
  lookup : ∀ i r, rules[i]? = some r → rules'[g + i]? = some (r.shift g)

namespace Placed

variable {g : Nat} {rules rules' : List Rule}

/-- The rules at their places are rules of the longer sequence. -/
theorem lt (h : Placed g rules rules') {i : Nat} (hi : i < rules.length) :
  g + i < rules'.length
  := (List.getElem?_eq_some_iff.mp (h.lookup i _ (List.getElem?_eq_getElem hi))).1

/-- A rule at its place is the rule with its operands moved up. -/
theorem getElem_eq (h : Placed g rules rules') {i : Nat} (hi : i < rules.length)
    (hplace : g + i < rules'.length) :
  rules'[g + i] = rules[i].shift g
  := (List.getElem?_eq_some_iff.mp (h.lookup i _ (List.getElem?_eq_getElem hi))).2

/-- Operands are at their places in the longer sequence. -/
theorem toNat_operand (h : Placed g rules rules') {i : Nat} (hi : i < rules.length) {j : BitVec 32}
    (hj : j ∈ rules[i].operands) :
  j.toNat < rules.length ∧ (j + BitVec.ofNat 32 g).toNat = g + j.toNat
  := by
  have hlt : j.toNat < rules.length := by
    apply h.inRange i
    rw [refers_iff]
    exact ⟨rules[i], List.getElem?_eq_getElem hi, j, hj, rfl⟩
  exact ⟨hlt, toNat_add_ofNat h.room hlt⟩

/-- A rule at its place refers to what the rule refers to, at its place. -/
theorem refers_iff (h : Placed g rules rules') {i j : Nat} (hi : i < rules.length) :
  Refers rules' (g + i) j ↔ ∃ k, Refers rules i k ∧ j = g + k
  := by
  have hr := List.getElem?_eq_getElem hi
  constructor
  · intro hij
    obtain ⟨r', hr', k', hk', rfl⟩ := Rule.refers_iff.mp hij
    obtain rfl := Option.some.inj (hr'.symm.trans (h.lookup i _ hr))
    rw [operands_shift] at hk'
    obtain ⟨k, hk, rfl⟩ := List.mem_map.mp hk'
    exact ⟨k.toNat, Rule.refers_iff.mpr ⟨_, hr, k, hk, rfl⟩, (h.toNat_operand hi hk).2⟩
  · rintro ⟨_, hik, rfl⟩
    obtain ⟨r, hr', k, hk, rfl⟩ := Rule.refers_iff.mp hik
    obtain rfl := Option.some.inj (hr.symm.trans hr')
    rw [Rule.refers_iff]
    refine ⟨_, h.lookup i _ hr, k + BitVec.ofNat 32 g, ?_, (h.toNat_operand hi hk).2⟩
    rw [operands_shift]
    exact List.mem_map.mpr ⟨k, hk, rfl⟩

/-- A rule at its place depends on what the rule depends on, at its place. -/
theorem transGen (h : Placed g rules rules') {i j : Nat} (hi : i < rules.length)
    (hij : Relation.TransGen (Refers rules') (g + i) j) :
  ∃ k, Relation.TransGen (Refers rules) i k ∧ j = g + k
  := by
  induction hij with
  | single hij =>
      obtain ⟨k, hik, rfl⟩ := (h.refers_iff hi).mp hij
      exact ⟨k, .single hik, rfl⟩
  | tail _ hjl ih =>
      obtain ⟨k, hik, rfl⟩ := ih
      obtain ⟨u, _, huk⟩ := Relation.TransGen.tail'_iff.mp hik
      obtain ⟨l, hkl, rfl⟩ := (h.refers_iff (h.inRange u k huk)).mp hjl
      exact ⟨l, hik.tail hkl, rfl⟩

end Placed

/-- What a rule selects does not depend on its place, which only errors tell. -/
theorem select_add (panel : Panel σ) (req : Request) (g i : Nat) (r : Rule) (source : Source) :
  select panel req (g + i) r source =
    ExceptT.adapt (RuleError.shift g) (select panel req i r source)
  := by
  cases source with
  | argument k =>
      rw [select, select]
      cases req.question.args[k.toNat]? <;> rfl
  | height => rfl
  | timestamp => rfl
  | oracle =>
      rw [select, select]
      cases panel.named? r.value <;> rfl
  | ownValue => rfl
  | reserved k => rfl

/-- A test does not depend on the place of the rule, which only errors tell. -/
theorem test_add (panel : Panel σ) (req : Request) (g i : Nat) (r : Rule) (source : Source)
    (c : Comparison) :
  test panel req (g + i) r source c =
    ExceptT.adapt (RuleError.shift g) (test panel req i r source c)
  := by
  apply ExceptT.ext
  apply StateT.ext
  intro s
  rw [adapt_run, test_run_eq, test_run_eq, select_add, adapt_run]
  cases ((select panel req i r source).run.run s).1 <;> rfl

/-- The value of a rule is translated to its place when the values of its operands are. -/
theorem translates_valueBy {f : ν → μ} (panel : Panel σ) (req : Request) (g i : Nat) (r : Rule)
    {ask : BitVec 32 → StateT ν (ExceptT RuleError (StateM σ)) Bool}
    {ask' : BitVec 32 → StateT μ (ExceptT RuleError (StateM σ)) Bool}
    (hask : ∀ j ∈ r.operands,
      Translates f (RuleError.shift g) (ask j) (ask' (j + BitVec.ofNat 32 g))) :
  Translates f (RuleError.shift g) (valueBy panel req i r ask)
    (valueBy panel req (g + i) (r.shift g) ask')
  := by
  rw [operands] at hask
  rw [valueBy, valueBy, clause_shift, code_shift]
  cases hclause : r.clause with
  | error defect =>
      cases defect with
      | unknownOperator => exact Translates.throw (RuleError.unknownOperator i r.code)
      | misplacedLogic => exact Translates.throw (RuleError.misplacedLogic i)
  | ok clause =>
      rw [hclause] at hask
      cases clause with
      | test source c =>
          rw [shift_of_test hclause]
          change Translates f _ _ (StateT.lift (test panel req (g + i) r source c))
          rw [test_add]
          apply Translates.lift
      | combine φ =>
          change Translates f _ _ ((φ.map (· + BitVec.ofNat 32 g)).evalM ask')
          rw [Formula.evalM_map]
          apply Translates.isCongruence.evalM φ ask _ hask

/-- The evaluation of a rule of a sequence is translated to its place in a longer one. The notes
on other rules stay as they are. -/
theorem Placed.translates_evalAt {g : Nat} {rules rules' : List Rule} (h : Placed g rules rules')
    (around : Vector Mark rules'.length) (panel : Panel σ) (req : Request)
    (limit budget source source' : Nat) {i : Nat} (hi : i < rules.length) :
  Translates (putIn g around) (RuleError.shift g) (evalAt rules panel req limit budget source i)
    (evalAt rules' panel req limit budget source' (g + i))
  := by
  induction budget generalizing source source' i with
  | zero => exact Translates.throw (RuleError.depthExceeded limit)
  | succ budget ih =>
      have hplace := h.lt hi
      rw [evalAt_of_lt _ _ _ _ _ hi, evalAt_of_lt _ _ _ _ _ hplace]
      apply Translates.get
      intro marks
      rw [getElem_putIn hi hplace]
      cases marks[i] with
      | done value => apply Translates.pure
      | visiting => exact Translates.throw (RuleError.cycle i)
      | pending =>
          apply Translates.bind (Translates.modify fun marks => set_putIn hi hplace .visiting)
          intro _
          apply Translates.bind
          · rw [h.getElem_eq hi hplace]
            apply translates_valueBy
            intro j hj
            obtain ⟨hlt, hup⟩ := h.toNat_operand hi hj
            rw [hup]
            exact ih i (g + i) hlt
          intro value
          apply Translates.bind (Translates.modify fun marks => set_putIn hi hplace (.done value))
          intro _
          apply Translates.pure

end Rule

end DelegatedAccess
