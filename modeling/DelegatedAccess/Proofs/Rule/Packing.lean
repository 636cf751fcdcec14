import DelegatedAccess.Proofs.Rule.Conjunction

/-!
# Operands packed into values

A logic rule keeps the indices of its operands in its value, 32 bits for each from the lowest one
up. Its connective uses as many of the three as it has operands, and the bits above those are read
by nothing: neither where the structure of a sequence is checked nor where the sequence is
evaluated.

The main result of this module is that indices are read back from the value that they are packed
into, that a value packs the indices read from it up to its highest 32 bits, and that a sequence
stays what it is when the values of logic rules are replaced by others with the same operands.
-/

namespace DelegatedAccess

variable {σ ν μ ε α : Type}

namespace Rule

/-! ### Indices -/

/-- The indices are read back from the value that they are packed into. -/
theorem unpack_pack (a b c : BitVec 32) :
  unpack (pack a b c) = (a, b, c)
  := unpack_append 0#32 c b a

/-- Each index has 32 bits of its own. -/
theorem toNat_pack (a b c : BitVec 32) :
  (pack a b c).toNat = a.toNat + b.toNat * 2 ^ 32 + c.toNat * 2 ^ 64
  := by
  have ha : a.toNat < 2 ^ 32 := a.isLt
  have hb : b.toNat < 2 ^ 32 := b.isLt
  rw [pack, BitVec.toNat_append, BitVec.toNat_append, BitVec.toNat_append,
    ← Nat.shiftLeft_add_eq_or_of_lt ha, ← Nat.shiftLeft_add_eq_or_of_lt hb,
    Nat.shiftLeft_eq, Nat.shiftLeft_eq]
  simp only [BitVec.toNat_ofNat, Nat.reducePow, Nat.zero_mod, Nat.zero_shiftLeft, Nat.zero_or]
  omega

/-- Each index is read from 32 bits of its own. -/
theorem toNat_unpack (v : Value) :
  (unpack v).1.toNat = v.toNat % 2 ^ 32 ∧
    (unpack v).2.1.toNat = v.toNat / 2 ^ 32 % 2 ^ 32 ∧
    (unpack v).2.2.toNat = v.toNat / 2 ^ 64 % 2 ^ 32
  := by
  simp only [unpack, BitVec.extractLsb'_toNat, Nat.shiftRight_eq_div_pow, Nat.pow_zero, Nat.div_one,
    and_self]

/-- To pack the indices read from a value drops the bits above them. -/
theorem toNat_pack_unpack (v : Value) :
  (pack (unpack v).1 (unpack v).2.1 (unpack v).2.2).toNat = v.toNat % 2 ^ 96
  := by
  obtain ⟨ha, hb, hc⟩ := toNat_unpack v
  rw [toNat_pack, ha, hb, hc]
  omega

end Rule

/-- For a connective two values have the same operands when they agree in the lowest 32 bits for
each operand. -/
def Connective.SameFields (k : Connective) (v w : Value) : Prop :=
  v.toNat % 2 ^ (32 * k.arity) = w.toNat % 2 ^ (32 * k.arity)

/-- A connective combines the same operands exactly when it finds the same fields. -/
theorem Connective.formula_unpack_eq_iff (k : Connective) (v w : Value) :
  k.formula (Rule.unpack v).1 (Rule.unpack v).2.1 (Rule.unpack v).2.2 =
      k.formula (Rule.unpack w).1 (Rule.unpack w).2.1 (Rule.unpack w).2.2 ↔
    k.SameFields v w
  := by
  obtain ⟨ha, hb, hc⟩ := Rule.toNat_unpack v
  obtain ⟨ha', hb', hc'⟩ := Rule.toNat_unpack w
  cases k <;>
    simp only [formula, SameFields, arity, Formula.not.injEq, Formula.and.injEq, Formula.or.injEq,
      Formula.xor.injEq, Formula.ifElse.injEq, ← BitVec.toNat_inj, ha, hb, hc, ha', hb', hc'] <;>
    omega

/-- Formulas of one connective with the same operands are equal. -/
theorem Connective.formula_eq_of_operands {ι : Type} {k : Connective} {a b c a' b' c' : ι}
    (h : (k.formula a b c).operands = (k.formula a' b' c').operands) :
  k.formula a b c = k.formula a' b' c'
  := by
  cases k <;> simp_all [formula, Formula.operands]

namespace Rule

/-! ### Rules with other values -/

/-- A rule is meant to be a logic rule when it has the logic selector or a connective. -/
def IsLogic (r : Rule) : Prop :=
  r.selector = logicSelector ∨ ∃ k, r.operator? = some (.connect k)

/-- A rule is repacked when it stays the same, or when it is meant to be a logic rule and has
another value with the same operands for its connective. Without a connective it has no operands. -/
inductive Repacked : Rule → Rule → Prop
  | same (r : Rule) : Repacked r r
  | value {r : Rule} (v : Value) (hlogic : r.IsLogic)
      (hfields : ∀ k, r.operator? = some (.connect k) → k.SameFields v r.value) :
      Repacked r { r with value := v }

namespace Repacked

variable {r r' : Rule}

/-- A rule that is repacked says the same. -/
theorem clause_eq (h : Repacked r r') :
  r'.clause = r.clause
  := by
  cases h with
  | same => rfl
  | value v hlogic hfields =>
      have hop : ({ r with value := v } : Rule).operator? = r.operator? := rfl
      rw [clause, clause, hop]
      cases hr : r.operator? with
      | none => rfl
      | some op =>
          cases op with
          | compare c => rfl
          | connect k =>
              have hformula := (k.formula_unpack_eq_iff v r.value).mpr (hfields k hr)
              dsimp only
              rw [hformula]

/-- A rule that is repacked has the same operands. -/
theorem operands_eq (h : Repacked r r') :
  r'.operands = r.operands
  := by
  rw [operands, operands, h.clause_eq]

/-- The value of a rule that is repacked is found in the same way. -/
theorem valueBy_eq (h : Repacked r r') (panel : Panel σ) (req : Request) (i : Nat)
    (ask : BitVec 32 → StateT ν (ExceptT RuleError (StateM σ)) Bool) :
  valueBy panel req i r' ask = valueBy panel req i r ask
  := by
  have hclause := h.clause_eq
  rw [valueBy, valueBy, hclause]
  cases h with
  | same => rfl
  | value v hlogic hfields =>
      have hsays := says_clause r
      generalize r.clause = clause at hsays ⊢
      cases hsays with
      | unknown => rfl
      | misplaced => rfl
      | combine => rfl
      | test hop hselector =>
          -- a test is made only without the logic selector and by a comparison
          rcases hlogic with hlogic | ⟨k, hk⟩
          · exact absurd hlogic hselector
          · cases hop.symm.trans hk

end Repacked

/-- A logic rule with another value has the same operands exactly when the value has the fields that
its connective uses in common with that of the rule. -/
theorem operands_value_eq_iff {r : Rule} {k : Connective} (hop : r.operator? = some (.connect k))
    (hselector : r.selector = logicSelector) (v : Value) :
  ({ r with value := v } : Rule).operands = r.operands ↔ k.SameFields v r.value
  := by
  have hclause : ∀ w : Value, ({ r with value := w } : Rule).clause =
      .ok (.combine (k.formula (unpack w).1 (unpack w).2.1 (unpack w).2.2)) := by
    intro w
    have hop' : ({ r with value := w } : Rule).operator? = some (.connect k) := hop
    rw [clause, hop']
    dsimp only
    rw [if_pos hselector]
  have hself : r.clause = _ := hclause r.value
  rw [← k.formula_unpack_eq_iff, operands, operands, hclause v, hself]
  exact ⟨Connective.formula_eq_of_operands, congrArg Formula.operands⟩

/-- In a sequence any rule can be repacked. -/
theorem forall₂_repacked_set {rules : List Rule} {i : Nat} {r r' : Rule} (hr : rules[i]? = some r)
    (h : Repacked r r') :
  List.Forall₂ Repacked rules (rules.set i r')
  := by
  induction rules generalizing i with
  | nil => contradiction
  | cons x rules ih =>
      cases i with
      | zero =>
          obtain rfl := Option.some.inj hr
          exact .cons h (List.forall₂_same.mpr fun y _ => .same y)
      | succ i => exact .cons (.same x) (ih hr)

/-! ### Structure -/

section

variable {rules rules' : List Rule}

/-- With the same operands the same one is astray. -/
theorem strayOperand?_congr (h : rules.map operands = rules'.map operands) :
  strayOperand? rules = strayOperand? rules'
  := by
  have hread : ∀ rules : List Rule, strayOperand? rules =
      (rules.map operands).zipIdx.findSome? fun (js, i) =>
        (js.find? fun j => (rules.map operands).length ≤ j.toNat).map fun j =>
          .operandOutOfRange i j.toNat (rules.map operands).length := by
    intro rules
    rw [strayOperand?, List.zipIdx_map, List.findSome?_map, List.length_map]
    rfl
  rw [hread, hread, h]

/-- With the same operands the same is read off the graph. -/
theorem graph_congr (h : rules.map operands = rules'.map operands) {α : Type}
    (read : ∀ {n : Nat}, Graph n → α) :
  read (graph rules) = read (graph rules')
  := by
  have hlength : rules.length = rules'.length := by
    simpa only [List.length_map] using congrArg List.length h
  have hread : ∀ (rules : List Rule) (n : Nat) (hn : rules.length = n),
      read (graph rules) = read (n := n) ⟨((rules.map operands).map fun js =>
        js.filterMap fun j => if h : j.toNat < n then some ⟨j.toNat, h⟩ else none).toArray,
        by simpa using hn⟩ := by
    rintro rules _ rfl
    simp only [List.map_map]
    rfl
  rw [hread rules _ hlength, hread rules' _ rfl]
  simp only [h]

/-- With the same operands the same top-level rules are found, or the same is wrong. -/
theorem roots_congr (h : rules.map operands = rules'.map operands) :
  (roots rules).map (List.map Fin.val) = (roots rules').map (List.map Fin.val)
  := by
  have hmissed := graph_congr h fun {n} g =>
    ((List.finRange n).find? fun i => !(g.reachable g.sources)[i]).map Fin.val
  have hsources := graph_congr h fun g => g.sources.map Fin.val
  rw [roots, roots, strayOperand?_congr h]
  cases strayOperand? rules' with
  | some e => rfl
  | none =>
      dsimp only at hmissed hsources ⊢
      split
      next i hfind =>
        rw [hfind, Option.map_some, eq_comm, Option.map_eq_some_iff] at hmissed
        obtain ⟨i', hfind', hi⟩ := hmissed
        rw [hfind', Except.map, Except.map, hi]
      next hfind =>
        rw [hfind, Option.map_none, eq_comm, Option.map_eq_none_iff] at hmissed
        rw [hmissed, Except.map, Except.map, hsources]

/-- With the same operands either the same is wrong, or the same top-level rules are found. -/
theorem roots_alike (h : rules.map operands = rules'.map operands) :
  (∃ e, roots rules = .error e ∧ roots rules' = .error e) ∨
    ∃ is is', roots rules = .ok is ∧ roots rules' = .ok is' ∧ is.map Fin.val = is'.map Fin.val
  := by
  have hroots := roots_congr h
  rcases heq : roots rules with e | is <;> rcases heq' : roots rules' with e' | is' <;>
    rw [heq, heq'] at hroots
  · obtain rfl := Except.error.inj hroots
    exact .inl ⟨e, rfl, rfl⟩
  · contradiction
  · contradiction
  · exact .inr ⟨is, is', rfl, rfl, Except.ok.inj hroots⟩

/-- With the same operands the check comes to the same. -/
theorem checkStructure_congr (h : rules.map operands = rules'.map operands) :
  checkStructure rules = checkStructure rules'
  := by
  rcases roots_alike h with ⟨e, herror, herror'⟩ | ⟨is, is', hok, hok', _⟩
  · rw [checkStructure_of_error herror, checkStructure_of_error herror']
  · have hlength : rules.length = rules'.length := graph_congr h fun {n} _ => n
    have hremoved : (graph rules).sweep.removed.length = (graph rules').sweep.removed.length :=
      graph_congr h fun g => g.sweep.removed.length
    have hstuck : firstStuck rules = firstStuck rules' := graph_congr h fun {n} g =>
      (((List.finRange n).find? fun i => 0 < g.sweep.indegree.get i).map Fin.val).getD 0
    rw [checkStructure_of_ok hok, checkStructure_of_ok hok', hremoved, hlength, hstuck]

end

/-! ### Evaluation -/

/-- Errors about rules that come no rules later are the errors themselves. -/
theorem adapt_shift_zero (m : ExceptT RuleError (StateM σ) α) :
  ExceptT.adapt (RuleError.shift 0) m = m
  := by
  apply ExceptT.ext
  apply StateT.ext
  intro s
  rw [adapt_run]
  rcases m.run.run s with ⟨e | a, t⟩
  · dsimp only [Except.mapError]
    rw [RuleError.shift_zero]
  · rfl

/-- A failure is translated to itself by the errors about rules that come no rules later. -/
theorem translates_throw_self (f : ν → μ) (e : RuleError) :
  Translates f (RuleError.shift 0) (throw e : StateT ν (ExceptT RuleError (StateM σ)) α) (throw e)
  := by
  have hthrow : Translates f (RuleError.shift 0)
      (throw e : StateT ν (ExceptT RuleError (StateM σ)) α) _ := Translates.throw e
  rwa [RuleError.shift_zero] at hthrow

/-- The value of a rule at its own place is translated when the values of its operands are. -/
theorem translates_valueBy_self {f : ν → μ} (panel : Panel σ) (req : Request) (i : Nat) (r : Rule)
    {ask : BitVec 32 → StateT ν (ExceptT RuleError (StateM σ)) Bool}
    {ask' : BitVec 32 → StateT μ (ExceptT RuleError (StateM σ)) Bool}
    (hask : ∀ j ∈ r.operands, Translates f (RuleError.shift 0) (ask j) (ask' j)) :
  Translates f (RuleError.shift 0) (valueBy panel req i r ask) (valueBy panel req i r ask')
  := by
  have hup : ∀ j ∈ r.operands,
      Translates f (RuleError.shift 0) (ask j) (ask' (j + BitVec.ofNat 32 0)) := by
    intro j hj
    rw [BitVec.add_zero]
    exact hask j hj
  have hvalue := translates_valueBy panel req 0 i r hup
  rwa [shift_zero, Nat.zero_add] at hvalue

section

variable {n m : Nat} (h : n = m)

/-- Notes on a sequence of the same length are made at the same places. -/
theorem set_cast (marks : Vector Mark n) {i : Nat} (hi : i < n) (x : Mark) :
  (marks.cast h).set i x (h ▸ hi) = (marks.set i x).cast h
  := rfl

/-- Without notes on a sequence there are none on one of the same length. -/
theorem cast_replicate (x : Mark) :
  (Vector.replicate n x).cast h = Vector.replicate m x
  := by
  subst h
  rfl

end

section

variable {rules rules' : List Rule}

/-- A rule of a sequence is evaluated as it is when any rules are repacked. -/
theorem translates_evalAt (h : List.Forall₂ Repacked rules rules') (panel : Panel σ)
    (req : Request) (limit budget source i : Nat) :
  Translates (Vector.cast h.length_eq) (RuleError.shift 0)
    (evalAt rules panel req limit budget source i) (evalAt rules' panel req limit budget source i)
  := by
  induction budget generalizing source i with
  | zero => exact Translates.throw (RuleError.depthExceeded limit)
  | succ budget ih =>
      rcases Nat.lt_or_ge i rules.length with hi | hi
      · have hi' : i < rules'.length := h.length_eq ▸ hi
        have hrule : Repacked rules[i] rules'[i] := h.get hi hi'
        rw [evalAt_of_lt _ _ _ _ _ hi, evalAt_of_lt _ _ _ _ _ hi']
        apply Translates.get
        intro marks
        rw [Vector.getElem_cast]
        cases marks[i] with
        | done value => apply Translates.pure
        | visiting => apply translates_throw_self
        | pending =>
            apply Translates.bind (Translates.modify fun _ => set_cast h.length_eq _ hi _)
            intro _
            apply Translates.bind
            · rw [hrule.valueBy_eq]
              apply translates_valueBy_self
              intro j _
              apply ih
            intro value
            apply Translates.bind (Translates.modify fun _ => set_cast h.length_eq _ hi _)
            intro _
            apply Translates.pure
      · have hi' : rules'.length ≤ i := h.length_eq ▸ hi
        have hthrow : evalAt rules' panel req limit (budget + 1) source i =
            throw (.operandOutOfRange source i rules.length) := by
          rw [evalAt_of_le _ _ _ _ _ hi', h.length_eq]
        rw [evalAt_of_le _ _ _ _ _ hi, hthrow]
        apply translates_throw_self

/-- Repacked rules have the same operands. -/
theorem map_operands_eq (h : List.Forall₂ Repacked rules rules') :
  rules.map operands = rules'.map operands
  := by
  induction h with
  | nil => rfl
  | cons hr _ ih => rw [List.map_cons, List.map_cons, ih, hr.operands_eq]

/-- A sequence comes to what it is when any rules are repacked. -/
theorem evaluate_eq_of_repacked (h : List.Forall₂ Repacked rules rules') (panel : Panel σ)
    (req : Request) (limit : Nat) :
  evaluate rules panel req limit = evaluate rules' panel req limit
  := by
  rcases roots_alike (map_operands_eq h) with ⟨e, herror, herror'⟩ | ⟨is, is', hok, hok', his⟩
  · rw [evaluate, evaluate, herror, herror']
  · have hall : Translates (Vector.cast h.length_eq) (RuleError.shift 0)
        (allAt rules panel req limit (is.map Fin.val))
        (allAt rules' panel req limit (is.map Fin.val)) := by
      apply Translates.isCongruence.allM
      intro i _
      apply translates_evalAt h
    have hrun := hall.run' (.replicate rules.length .pending)
    rw [cast_replicate, adapt_shift_zero] at hrun
    rw [evaluate_of_roots hok, evaluate_of_roots hok', ← his, hrun]

end

/-- Three indices are read back from the value that they are packed into, where each has 32 bits,
the first one the lowest. Each index is read from its 32 bits of any value, and to pack the indices
read drops only the bits above them. A logic rule has other operands with every other value, unless
this agrees with its own in the lowest 32 bits for each operand that its connective has: one, two or
three. When the value of any logic rule is replaced by such a value, or the values of several, the
sequence has the same top-level rules or the same error about them, the check comes to the same, and
for every request and under any oracles and any limit the evaluation is the same. -/
theorem packing_exact :
  (∀ a b c : BitVec 32, unpack (pack a b c) = (a, b, c) ∧
    (pack a b c).toNat = a.toNat + b.toNat * 2 ^ 32 + c.toNat * 2 ^ 64) ∧
    (∀ v : Value, ((unpack v).1.toNat = v.toNat % 2 ^ 32 ∧
      (unpack v).2.1.toNat = v.toNat / 2 ^ 32 % 2 ^ 32 ∧
      (unpack v).2.2.toNat = v.toNat / 2 ^ 64 % 2 ^ 32) ∧
      (pack (unpack v).1 (unpack v).2.1 (unpack v).2.2).toNat = v.toNat % 2 ^ 96) ∧
    (∀ (r : Rule) (k : Connective), r.operator? = some (.connect k) → r.selector = logicSelector →
      ∀ v : Value, ({ r with value := v } : Rule).operands = r.operands ↔
        v.toNat % 2 ^ (32 * k.arity) = r.value.toNat % 2 ^ (32 * k.arity)) ∧
    (∀ (rules : List Rule) (i : Nat) (r : Rule), rules[i]? = some r → r.IsLogic →
      ∀ v : Value, (∀ k : Connective, r.operator? = some (.connect k) →
        v.toNat % 2 ^ (32 * k.arity) = r.value.toNat % 2 ^ (32 * k.arity)) →
      List.Forall₂ Repacked rules (rules.set i { r with value := v })) ∧
    ∀ rules rules' : List Rule, List.Forall₂ Repacked rules rules' →
      (roots rules).map (List.map Fin.val) = (roots rules').map (List.map Fin.val) ∧
      checkStructure rules = checkStructure rules' ∧
      ∀ (σ : Type) (panel : Panel σ) (req : Request) (limit : Nat),
        evaluate rules panel req limit = evaluate rules' panel req limit
  := by
  refine ⟨fun a b c => ⟨unpack_pack a b c, toNat_pack a b c⟩,
    fun v => ⟨toNat_unpack v, toNat_pack_unpack v⟩,
    fun r k hop hselector v => operands_value_eq_iff hop hselector v,
    fun rules i r hr hlogic v hfields => forall₂_repacked_set hr (.value v hlogic hfields), ?_⟩
  intro rules rules' h
  have hoperands := map_operands_eq h
  exact ⟨roots_congr hoperands, checkStructure_congr hoperands,
    fun _ => evaluate_eq_of_repacked h⟩

/-! ### An example -/

/-- What passes does not fail, or passes. -/
def bare : List Rule :=
  [.or 1 2, .not 2, .always]

/-- The same rules with indices where the connectives have no operands, beyond the sequence. -/
def padded : List Rule :=
  [.logic .or 1 2 7, .logic .not 2 8 9, .always]

/-- The indices without a use are not noticed. -/
theorem packing_exact_padded :
  bare ≠ padded ∧ List.Forall₂ Repacked bare padded ∧ checkStructure padded = .ok () ∧
    ((evaluate padded (Panel.empty : Panel Unit) ⟨⟨⟨7⟩, ⟨.createPermissions, ⟨9⟩⟩, []⟩, ⟨0, 0⟩⟩
      2).run.run ()).1 = .ok true
  := by
  have hor : Repacked (.or 1 2) (.logic .or 1 2 7) := by
    apply Repacked.value (pack 1 2 7) (.inl rfl)
    intro k hk
    obtain rfl := Operator.connect.inj (Option.some.inj hk)
    rfl
  have hnot : Repacked (.not 2) (.logic .not 2 8 9) := by
    apply Repacked.value (pack 2 8 9) (.inl rfl)
    intro k hk
    obtain rfl := Operator.connect.inj (Option.some.inj hk)
    rfl
  have hpadded : List.Forall₂ Repacked bare padded :=
    .cons hor (.cons hnot (.cons (.same _) .nil))
  obtain ⟨_, _, _, _, hsame⟩ := packing_exact
  obtain ⟨_, hcheck, hevaluate⟩ := hsame bare padded hpadded
  refine ⟨by decide, hpadded, ?_, ?_⟩
  · rw [← hcheck]
    decide +kernel
  · rw [← hevaluate]
    decide +kernel

end Rule

end DelegatedAccess
