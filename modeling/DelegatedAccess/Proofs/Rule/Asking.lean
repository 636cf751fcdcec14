import DelegatedAccess.Proofs.Rule.Correctness
import DelegatedAccess.Proofs.Rule.Trace

/-!
# Rules are asked at most once

Whatever a rule sequence is like, and whatever the oracles do, an evaluation begins no rule twice.
A rule that makes a call makes it right after it is begun, so that the calls come in the order in
which the rules that make them are begun, and no two are made by the same rule.

The main result of this module is that the trace of every evaluation is orderly in this sense, and
that each call asks the question of the request.
-/

namespace DelegatedAccess

variable {σ ν : Type}

/-! ### The calls of a rule -/

/-- The calls that a rule at an index makes itself, when the oracles give these answers: one if it
tests the answer of an oracle that is there. -/
def Rule.called (answers : Answers) (req : Request) (i : Nat) (r : Rule) : List OracleCall :=
  if r.selector = oracleSelector then
    ((Entity.ofNat? r.value.toNat).bind fun e =>
      (answers e).map fun f => (⟨i, e, req.question, f req.question⟩ : OracleCall)).toList
  else []

/-- A call is made by a rule that tests the answer of an oracle, for a request, and is answered by
that oracle. -/
structure OracleCall.IsMade (rules : List Rule) (panel : Panel σ) (req : Request)
    (c : OracleCall) : Prop where
  question : c.question = req.question
  named : ∃ r, rules[c.rule]? = some r ∧ r.selector = Rule.oracleSelector ∧
    Entity.ofNat? r.value.toNat = some c.oracle
  answered : ∃ o s, panel c.oracle = some o ∧ ((o c.question).run s).1 = c.answer

/-- The calls that a rule of a sequence makes itself are made by it. -/
theorem Rule.isMade_of_mem_called {rules : List Rule} {panel : Panel σ} {req : Request} {s : σ}
    {i : Nat} {r : Rule} (hr : rules[i]? = some r) {c : OracleCall}
    (hc : c ∈ called (panel.answersAt s) req i r) :
  c.IsMade rules panel req
  := by
  rw [called] at hc
  split at hc
  next hselector =>
    obtain ⟨e, he, hcall⟩ := Option.bind_eq_some_iff.mp (Option.mem_toList.mp hc)
    obtain ⟨f, hf, rfl⟩ := Option.map_eq_some_iff.mp hcall
    obtain ⟨o, ho, rfl⟩ := Option.map_eq_some_iff.mp hf
    exact ⟨rfl, ⟨r, hr, hselector, he⟩, ⟨o, s, ho, rfl⟩⟩
  next => contradiction

/-- A rule makes a call in its own name, or none. -/
theorem Rule.called_eq (answers : Answers) (req : Request) (i : Nat) (r : Rule) :
  called answers req i r = [] ∨ ∃ c, called answers req i r = [c] ∧ c.rule = i
  := by
  rw [called]
  split
  · cases Entity.ofNat? r.value.toNat with
    | none => exact Or.inl rfl
    | some e =>
        rw [Option.bind_some]
        cases answers e with
        | none => exact Or.inl rfl
        | some f => exact Or.inr ⟨_, rfl, rfl⟩
  · exact Or.inl rfl

/-! ### Tests -/

/-- Noting calls does not change the answers. -/
theorem Panel.answersAt_tracing (panel : Panel σ) (i : Nat) (u : σ × Trace) :
  (panel.tracing i).answersAt u = panel.answersAt u.1
  := by
  funext e
  rw [answersAt, answersAt, tracing]
  cases panel e <;> rfl

/-- Without calls a trace stays. -/
@[simp] theorem Trace.tell_nil (t : Trace) :
  t.tell [] = t
  := by
  rw [tell, List.append_nil]

/-- Only one selector names the answer of an oracle. -/
theorem Source.ofSelector_eq_oracle_iff {k : UInt8} :
  Source.ofSelector k = .oracle ↔ k = Rule.oracleSelector
  := by
  constructor
  · intro h
    have hselects := Rule.selects_ofSelector k
    rw [h] at hselects
    cases hselects with
    | oracle hselector => exact hselector
  · rintro rfl
    rfl

namespace Rule

/-- Selecting a value makes the calls of the rule. -/
theorem select_tracing_run (panel : Panel σ) (req : Request) (i : Nat) (r : Rule)
    (u : σ × Trace) :
  ((select (panel.tracing i) req i r (Source.ofSelector r.selector)).run.run u).2.2 =
    u.2.tell (called (panel.answersAt u.1) req i r)
  := by
  by_cases hselector : r.selector = oracleSelector
  · rw [Source.ofSelector_eq_oracle_iff.mpr hselector, select, Panel.named?, called,
      if_pos hselector]
    cases Entity.ofNat? r.value.toNat with
    | none => exact u.2.tell_nil.symm
    | some e =>
        rw [Option.bind_some, Option.bind_some, Panel.tracing, Panel.answersAt]
        cases panel e with
        | none => exact u.2.tell_nil.symm
        | some o => rfl
  · rw [called, if_neg hselector, Trace.tell_nil]
    have hsource := mt Source.ofSelector_eq_oracle_iff.mp hselector
    cases hsel : Source.ofSelector r.selector with
    | argument k =>
        rw [select]
        cases req.question.args[k.toNat]? <;> rfl
    | height => rfl
    | timestamp => rfl
    | oracle => exact absurd hsel hsource
    | ownValue => rfl
    | reserved k => rfl

/-- A test comes to what the oracles answer when they are asked, and makes the calls of the
rule. -/
theorem test_tracing_run (panel : Panel σ) (req : Request) (i : Nat) (r : Rule) (c : Comparison)
    (u : σ × Trace) :
  ((test (panel.tracing i) req i r (Source.ofSelector r.selector) c).run.run u).1 =
      compared (panel.answersAt u.1) req i r c ∧
    ((test (panel.tracing i) req i r (Source.ofSelector r.selector) c).run.run u).2.2 =
      u.2.tell (called (panel.answersAt u.1) req i r)
  := by
  constructor
  · rw [test_run, Panel.answersAt_tracing]
  · rw [← select_tracing_run, test_run_eq]

end Rule

/-- A test makes the calls of the rule, and comes to what they are answered. -/
theorem Tells.test {F : OracleCall → Prop} {P : ν → Trace → Prop} {Q : Bool → ν → Trace → Prop}
    {E : RuleError → Trace → Prop} {panel : Panel σ} {req : Request} {i : Nat} {r : Rule}
    {c : Comparison}
    (h : ∀ (s : σ) v t, P v t →
      (∀ c ∈ Rule.called (panel.answersAt s) req i r, F c) →
      After Q E ((Rule.compared (panel.answersAt s) req i r c).map fun x => (x, v))
        (t.tell (Rule.called (panel.answersAt s) req i r))) :
  Tells F P
    (StateT.lift (Rule.test (panel.tracing i) req i r (Source.ofSelector r.selector) c)) Q E
  := by
  intro v u
  obtain ⟨hresult, htrace⟩ := Rule.test_tracing_run panel req i r c u
  rw [lift_run]
  dsimp only
  rw [hresult, htrace]
  refine ⟨List.prefix_append _ _, fun hF hP => h u.1 v u.2 hP ?_⟩
  exact fun c hc => hF c (List.mem_append_right _ hc)

/-! ### Orderly traces -/

/-- A trace is orderly when no rule is begun twice, and the calls are made in the order in which
rules are begun, no more than one by each rule, for the request. -/
structure Trace.IsOrderly (rules : List Rule) (panel : Panel σ) (req : Request) (t : Trace) :
    Prop where
  once : t.begun.Nodup
  inOrder : t.asked.Sublist t.begun
  made : ∀ c ∈ t.calls, c.IsMade rules panel req

namespace Rule

variable {rules : List Rule} {panel : Panel σ} {req : Request}

/-- The trace is orderly, and nothing is noted only about rules that were not begun. -/
structure Orderly (rules : List Rule) (panel : Panel σ) (req : Request)
    (marks : Vector Mark rules.length) (t : Trace) : Prop extends t.IsOrderly rules panel req where
  pending : ∀ (i : Nat) (h : i < rules.length), marks[i] = .pending → i ∉ t.begun

/-- The rule at an index was just begun, in an orderly way. -/
structure Entered (rules : List Rule) (panel : Panel σ) (req : Request) (i : Nat)
    (marks : Vector Mark rules.length) (t : Trace) : Prop extends Orderly rules panel req marks t
    where
  last : ∃ older, t.begun = older ++ [i] ∧ t.asked.Sublist older

namespace Orderly

variable {marks : Vector Mark rules.length} {t : Trace}

/-- At first no rule is begun. -/
theorem start :
  Orderly rules panel req (Vector.replicate rules.length .pending) .empty
  where
  once := List.nodup_nil
  inOrder := List.Sublist.refl _
  made _ hc := nomatch hc
  pending _ _ _ hi := nomatch hi

/-- A rule about which nothing is noted can be begun. -/
theorem enter (h : Orderly rules panel req marks t) {i : Nat} (hi : i < rules.length)
    (hpending : marks[i] = .pending) :
  Entered rules panel req i (marks.set i .visiting) (t.enter i)
  where
  once := by
    have hnot := h.pending i hi hpending
    rw [Trace.enter, List.nodup_append]
    refine ⟨h.once, List.nodup_singleton i, ?_⟩
    rintro j hj _ hk rfl
    obtain rfl := List.mem_singleton.mp hk
    exact hnot hj
  inOrder := h.inOrder.trans (List.sublist_append_left _ _)
  made := h.made
  pending j hj hmark hbegun := by
    obtain ⟨hne, hbefore⟩ := pending_of_set hmark nofun
    rcases List.mem_append.mp hbegun with hold | hnew
    · apply h.pending j hj hbefore hold
    · exact hne (List.mem_singleton.mp hnew).symm
  last := ⟨t.begun, rfl, h.inOrder⟩

/-- A rule that has a value is not pending. -/
theorem finish (h : Orderly rules panel req marks t) {i : Nat} (hi : i < rules.length) (x : Bool) :
  Orderly rules panel req (marks.set i (.done x)) t
  := by
  refine { h with pending := ?_ }
  intro j hj hmark
  apply h.pending j hj (pending_of_set hmark nofun).2

end Orderly

/-- A rule that was just begun may make its calls. -/
theorem Entered.tell {marks : Vector Mark rules.length} {t : Trace} {i : Nat} {r : Rule}
    (h : Entered rules panel req i marks t) (hr : rules[i]? = some r) (s : σ) :
  Orderly rules panel req marks (t.tell (called (panel.answersAt s) req i r))
  := by
  refine { once := h.once, inOrder := ?_, made := ?_, pending := h.pending }
  · obtain ⟨older, hbegun, hasked⟩ := h.last
    change ((t.calls ++ called (panel.answersAt s) req i r).map OracleCall.rule).Sublist t.begun
    rw [List.map_append, hbegun]
    apply hasked.append
    rcases called_eq (panel.answersAt s) req i r with hnone | ⟨c, hc, hi⟩
    · rw [hnone]
      apply List.nil_sublist
    · rw [hc, List.map_singleton, hi]
  · intro c hc
    rcases List.mem_append.mp hc with hold | hnew
    · apply h.made c hold
    · apply isMade_of_mem_called hr hnew

/-! ### Evaluations -/

/-- A rule that was just begun finds its value in an orderly way when its operands do. -/
theorem tells_valueBy {i : Nat} {r : Rule} (hr : rules[i]? = some r)
    {ask : BitVec 32 →
      StateT (Vector Mark rules.length) (ExceptT RuleError (StateM (σ × Trace))) Bool}
    (hask : ∀ j, Tells (fun _ => True) (Orderly rules panel req) (ask j)
      (fun _ => Orderly rules panel req) fun _ t => t.IsOrderly rules panel req) :
  Tells (fun _ => True) (Entered rules panel req i) (valueBy (panel.tracing i) req i r ask)
    (fun _ => Orderly rules panel req) fun _ t => t.IsOrderly rules panel req
  := by
  have hsays := says_clause r
  rw [valueBy]
  generalize r.clause = clause at hsays ⊢
  cases hsays with
  | unknown hop => exact Tells.throw fun _ _ h => h.toIsOrderly
  | misplaced hop hmix => exact Tells.throw fun _ _ h => h.toIsOrderly
  | test hop hselector =>
      apply Tells.test
      intro s marks t h _
      cases compared (panel.answersAt s) req i r _ with
      | error e => exact (h.tell hr s).toIsOrderly
      | ok x => exact h.tell hr s
  | @combine k hop hselector =>
      dsimp only
      rw [Connective.evalM_formula]
      have hbefore : Tells (fun _ => True) (Entered rules panel req i) (ask (unpack r.value).1)
          (fun _ => Orderly rules panel req) fun _ t => t.IsOrderly rules panel req :=
        (hask _).mono (fun _ _ h => h.toOrderly) (fun _ _ _ => id) fun _ _ => id
      apply hbefore.bind fun _ _ => id
      intro x
      cases k.next x (unpack r.value).2.1 (unpack r.value).2.2 with
      | settled y => exact Tells.pure fun _ _ => id
      | ask j f =>
          apply (hask j).bind fun _ _ => id
          intro y
          exact Tells.pure fun _ _ => id

/-- A rule that is asked for finds its value in an orderly way. -/
theorem tells_measureAt (rules : List Rule) (panel : Panel σ) (req : Request)
    (limit budget nesting source index : Nat) :
  Tells (fun _ => True) (Orderly rules panel req)
    (measureAt (.tracer panel) rules req limit budget nesting source index)
    (fun _ => Orderly rules panel req) fun _ t => t.IsOrderly rules panel req
  := by
  induction budget generalizing nesting source index with
  | zero => exact Tells.asked (Tells.throw fun _ _ h => h.toIsOrderly)
  | succ budget ih =>
      rw [measureAt]
      apply Tells.asked
      split
      next hindex =>
        apply Tells.get
        intro marks
        cases hmark : marks[index] with
        | done x => exact Tells.pure fun _ _ h => h.1 ▸ h.2
        | visiting => exact Tells.throw fun _ _ h => h.2.toIsOrderly
        | pending =>
            have hvalue := tells_valueBy (List.getElem?_eq_getElem hindex)
              fun j : BitVec 32 => ih (nesting + 1) index j.toNat
            refine Tells.begun ?_ (hvalue.bind (fun _ _ => id) ?_)
            · rintro _ t ⟨rfl, h⟩
              exact h.enter hindex hmark
            · intro x
              refine Tells.modify ?_ (Tells.pure fun _ _ => id)
              intro marks t h
              exact h.finish hindex x
      next => exact Tells.throw fun _ _ h => h.toIsOrderly

/-- Whether all rules of a list pass is found in an orderly way. -/
theorem tells_allM (rules : List Rule) (panel : Panel σ) (req : Request) (limit : Nat)
    (is : List (Fin rules.length)) :
  Tells (fun _ => True) (Orderly rules panel req)
    (is.allM fun i : Fin rules.length =>
      measureAt (.tracer panel) rules req limit (limit + 1) 1 i i)
    (fun _ => Orderly rules panel req) fun _ t => t.IsOrderly rules panel req
  := by
  induction is with
  | nil => exact Tells.pure fun _ _ => id
  | cons i is ih =>
      apply (tells_measureAt rules panel req limit (limit + 1) 1 i i).bind fun _ _ => id
      intro x
      cases x with
      | true => exact ih
      | false => exact Tells.pure fun _ _ => id

/-- Nothing happens in the evaluation of a sequence without top-level rules to begin with. -/
theorem trace_of_roots {rules : List Rule} {e : RuleError} (h : roots rules = .error e)
    (panel : Panel σ) (req : Request) (limit : Nat) (s : σ) :
  trace rules panel req limit s = .empty
  := by
  rw [trace, traceAll, measureAll, h]
  rfl

/-- The trace of every evaluation is orderly. -/
theorem trace_isOrderly (rules : List Rule) (panel : Panel σ) (req : Request) (limit : Nat)
    (s : σ) :
  (trace rules panel req limit s).IsOrderly rules panel req
  := by
  cases hroots : roots rules with
  | error e =>
      rw [trace_of_roots hroots]
      exact (Orderly.start : Orderly rules panel req _ _).toIsOrderly
  | ok roots =>
      have hfound := (tells_allM rules panel req limit roots).mono (fun _ _ => id)
        (fun _ _ _ h => h.toIsOrderly) fun _ _ => id
      rw [trace, traceAll, measureAll, hroots]
      exact hfound.run' (W := fun _ t => t.IsOrderly rules panel req) _ _ (fun _ _ => trivial)
        Orderly.start

end Rule

end DelegatedAccess
