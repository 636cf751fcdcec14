import DelegatedAccess.Proofs.Rule.Asking

/-!
# What sharing values does to calls

A rule keeps its value for the rest of an evaluation, so that the oracle that it tests is asked only
once, however many rules ask for it. A plain evaluation, by recursion on the operands and with
nothing kept, asks again each time.

The main result of this module is that the calls of an evaluation are those of the plain evaluation
without the repetitions, as long as the depth that may be reached allows for all rules. In the plain
evaluation each rule is given the answer that it got in the other one, so that this makes sense for
oracles whose answers change in time. If they do not, it is the evaluation that says what a sequence
means.
-/

namespace DelegatedAccess

variable {σ ν : Type}

namespace Rule

/-! ### Plain evaluations -/

/-- The indices of the rules that make calls when a rule at an index is evaluated by itself. -/
def ownCalls (answers : Answers) (req : Request) (i : Nat) (r : Rule) : List Nat :=
  match r.operator? with
  | some (.compare _) => (called answers req i r).map OracleCall.rule
  | _ => []

/-- What the rule at an index comes to by plain recursion, and the indices of the rules that make
calls meanwhile, in order and with repetitions. What oracles answer may depend on the rule that
asks. -/
inductive Consults (rules : List Rule) (answers : Nat → Answers) (req : Request) :
    Nat → Except RuleError Bool → List Nat → Prop
  | alone {i : Nat} {r : Rule} {x : Except RuleError Bool} (hr : rules[i]? = some r)
      (hnot : ∀ k a b c, ¬ Combines rules i k a b c) (hx : Yields rules (answers i) req i x) :
      Consults rules answers req i x (ownCalls (answers i) req i r)
  | failed {i a b c : Nat} {k : Connective} {e : RuleError} {cs : List Nat}
      (hr : Combines rules i k a b c) (ha : Consults rules answers req a (.error e) cs) :
      Consults rules answers req i (.error e) cs
  | settled {i a b c : Nat} {k : Connective} {x y : Bool} {cs : List Nat}
      (hr : Combines rules i k a b c) (ha : Consults rules answers req a (.ok x) cs)
      (hnext : k.next x b c = .settled y) :
      Consults rules answers req i (.ok y) cs
  | resumed {i a b c j : Nat} {k : Connective} {x : Bool} {f : Bool → Bool}
      {z : Except RuleError Bool} {cs ds : List Nat} (hr : Combines rules i k a b c)
      (ha : Consults rules answers req a (.ok x) cs) (hnext : k.next x b c = .ask j f)
      (hj : Consults rules answers req j z ds) :
      Consults rules answers req i (z.map f) (cs ++ ds)

/-- Whether all rules of a list pass by plain recursion, and the indices of the rules that make
calls meanwhile. -/
inductive ConsultsAll (rules : List Rule) (answers : Nat → Answers) (req : Request) :
    List Nat → Except RuleError Bool → List Nat → Prop
  | nil : ConsultsAll rules answers req [] (.ok true) []
  | stop {i : Nat} {is cs : List Nat} (hi : Consults rules answers req i (.ok false) cs) :
      ConsultsAll rules answers req (i :: is) (.ok false) cs
  | failed {i : Nat} {is cs : List Nat} {e : RuleError}
      (hi : Consults rules answers req i (.error e) cs) :
      ConsultsAll rules answers req (i :: is) (.error e) cs
  | next {i : Nat} {is cs ds : List Nat} {y : Except RuleError Bool}
      (hi : Consults rules answers req i (.ok true) cs)
      (his : ConsultsAll rules answers req is y ds) :
      ConsultsAll rules answers req (i :: is) y (cs ++ ds)

section

variable {rules : List Rule} {answers : Nat → Answers} {req : Request}

/-- A logic rule comes to what follows from its first operand, and from the one that it asks for
next. -/
theorem Consults.of_combines {i a b c : Nat} {k : Connective} {v : Except RuleError Bool}
    {cs : List Nat} (hv : Consults rules answers req i v cs) (hr : Combines rules i k a b c) :
  ∃ w as, Consults rules answers req a w as ∧
    match w with
    | .error e => v = .error e ∧ cs = as
    | .ok x =>
      match k.next x b c with
      | .settled y => v = .ok y ∧ cs = as
      | .ask j f => ∃ z ds, Consults rules answers req j z ds ∧ v = z.map f ∧ cs = as ++ ds
  := by
  cases hv with
  | alone _ hnot _ => exact absurd hr (hnot _ _ _ _)
  | failed hr' ha =>
      obtain ⟨rfl, rfl, rfl, rfl⟩ := hr.unique hr'
      exact ⟨_, _, ha, rfl, rfl⟩
  | settled hr' ha hnext =>
      obtain ⟨rfl, rfl, rfl, rfl⟩ := hr.unique hr'
      refine ⟨_, _, ha, ?_⟩
      dsimp only
      rw [hnext]
      exact ⟨rfl, rfl⟩
  | resumed hr' ha hnext hj =>
      obtain ⟨rfl, rfl, rfl, rfl⟩ := hr.unique hr'
      refine ⟨_, _, ha, ?_⟩
      dsimp only
      rw [hnext]
      exact ⟨_, _, hj, rfl, rfl⟩

/-- Plain recursion comes to one thing, after one sequence of calls. -/
theorem Consults.unique {i : Nat} {v w : Except RuleError Bool} {cs ds : List Nat}
    (hv : Consults rules answers req i v cs) (hw : Consults rules answers req i w ds) :
  v = w ∧ cs = ds
  := by
  induction hv generalizing w ds with
  | alone hr hnot hx =>
      cases hw with
      | alone hr' _ hx' =>
          obtain rfl := Option.some.inj (hr.symm.trans hr')
          exact ⟨hx.unique hx', rfl⟩
      | failed hr' _ => exact absurd hr' (hnot _ _ _ _)
      | settled hr' _ _ => exact absurd hr' (hnot _ _ _ _)
      | resumed hr' _ _ _ => exact absurd hr' (hnot _ _ _ _)
  | failed hr _ iha =>
      obtain ⟨_, _, ha, hrest⟩ := hw.of_combines hr
      obtain ⟨rfl, rfl⟩ := iha ha
      exact ⟨hrest.1.symm, hrest.2.symm⟩
  | settled hr _ hnext iha =>
      obtain ⟨_, _, ha, hrest⟩ := hw.of_combines hr
      obtain ⟨rfl, rfl⟩ := iha ha
      dsimp only at hrest
      rw [hnext] at hrest
      exact ⟨hrest.1.symm, hrest.2.symm⟩
  | resumed hr _ hnext _ iha ihj =>
      obtain ⟨_, _, ha, hrest⟩ := hw.of_combines hr
      obtain ⟨rfl, rfl⟩ := iha ha
      dsimp only at hrest
      rw [hnext] at hrest
      obtain ⟨_, _, hj, rfl, rfl⟩ := hrest
      obtain ⟨rfl, rfl⟩ := ihj hj
      exact ⟨rfl, rfl⟩

/-- All rules of a list pass, or do not, or are in error, after one sequence of calls. -/
theorem ConsultsAll.unique {is : List Nat} {v w : Except RuleError Bool} {cs ds : List Nat}
    (hv : ConsultsAll rules answers req is v cs) (hw : ConsultsAll rules answers req is w ds) :
  v = w ∧ cs = ds
  := by
  induction hv generalizing w ds with
  | nil =>
      cases hw
      exact ⟨rfl, rfl⟩
  | stop hi =>
      cases hw with
      | stop hi' => exact ⟨rfl, (hi.unique hi').2⟩
      | failed hi' => exact nomatch (hi.unique hi').1
      | next hi' _ => exact nomatch (hi.unique hi').1
  | failed hi =>
      cases hw with
      | stop hi' => exact nomatch (hi.unique hi').1
      | failed hi' => exact hi.unique hi'
      | next hi' _ => exact nomatch (hi.unique hi').1
  | next hi _ ih =>
      cases hw with
      | stop hi' => exact nomatch (hi.unique hi').1
      | failed hi' => exact nomatch (hi.unique hi').1
      | next hi' his' =>
          obtain ⟨rfl, rfl⟩ := ih his'
          exact ⟨rfl, by rw [(hi.unique hi').2]⟩

end

section

variable {rules : List Rule} {answers : Answers} {req : Request}

/-- With answers that do not depend on the rule that asks, a rule comes to what it means. -/
theorem Consults.yields {i : Nat} {x : Except RuleError Bool} {cs : List Nat}
    (h : Consults rules (fun _ => answers) req i x cs) :
  Yields rules answers req i x
  := by
  induction h with
  | alone hr hnot hx => exact hx
  | failed hr _ iha => exact Yields.failed hr iha
  | settled hr _ hnext iha => exact iha.settled hr hnext
  | resumed hr _ hnext _ iha ihj => exact iha.resumed hr hnext ihj

/-- With answers that do not depend on the rule that asks, a list of rules comes to what it
means. -/
theorem ConsultsAll.allPass {is : List Nat} {x : Except RuleError Bool} {cs : List Nat}
    (h : ConsultsAll rules (fun _ => answers) req is x cs) :
  AllPass rules answers req is x
  := by
  induction h with
  | nil => exact AllPass.nil
  | stop hi => exact AllPass.stop hi.yields
  | failed hi => exact AllPass.failed hi.yields
  | next hi _ ih => exact AllPass.next hi.yields ih

end

end Rule

/-! ### The answers of an evaluation -/

/-- A call got the answer that its rule is given. -/
def OracleCall.IsAnsweredBy (answers : Nat → Answers) (c : OracleCall) : Prop :=
  ∃ f, answers c.rule c.oracle = some f ∧ f c.question = c.answer

/-- Answers are those of a panel, in some calls: the oracles go by the same names, and each call got
the answer that its rule is given. -/
structure Panel.Gives (panel : Panel σ) (answers : Nat → Answers) (calls : List OracleCall) :
    Prop where
  named : ∀ i e, (answers i e).isSome = (panel e).isSome
  answered : ∀ c ∈ calls, c.IsAnsweredBy answers

/-- Oracles that give the same answers in every state give them to every rule. -/
theorem Panel.AnswersAs.gives {panel : Panel σ} {answers : Answers} (h : panel.AnswersAs answers)
    {rules : List Rule} {req : Request} {calls : List OracleCall}
    (hmade : ∀ c ∈ calls, c.IsMade rules panel req) :
  panel.Gives (fun _ => answers) calls
  where
  named i e := by
    have hrel := h e
    generalize panel e = o at hrel ⊢
    generalize answers e = f at hrel ⊢
    cases hrel <;> rfl
  answered c hc := by
    obtain ⟨o, s, ho, hanswer⟩ := (hmade c hc).answered
    have hsame := congrFun (h.answersAt_eq s) c.oracle
    rw [answersAt, ho, Option.map_some] at hsame
    exact ⟨_, hsame.symm, hanswer⟩

/-- There are answers of a panel in calls, if each is made by another rule. -/
theorem Panel.exists_gives {panel : Panel σ} {rules : List Rule} {req : Request}
    {calls : List OracleCall} (hmade : ∀ c ∈ calls, c.IsMade rules panel req)
    (hnodup : (calls.map OracleCall.rule).Nodup) :
  ∃ answers, panel.Gives answers calls
  := by
  -- a rule is told the answer that it got
  refine ⟨fun i e => (panel e).map fun _ _ => calls.any fun c => c.rule = i && c.answer, ?_, ?_⟩
  · intro i e
    rw [Option.isSome_map]
  · intro c hc
    obtain ⟨o, _, ho, _⟩ := (hmade c hc).answered
    refine ⟨fun _ => calls.any fun d => d.rule = c.rule && d.answer, ?_, ?_⟩
    · dsimp only
      rw [ho, Option.map_some]
    · have hsame : ∀ d ∈ calls, d.rule = c.rule → d = c :=
        fun d hd => List.inj_on_of_nodup_map hnodup hd hc
      rw [Bool.eq_iff_iff, List.any_eq_true]
      constructor
      · rintro ⟨d, hd, hanswer⟩
        rw [Bool.and_eq_true, decide_eq_true_iff] at hanswer
        rw [← hsame d hd hanswer.1]
        exact hanswer.2
      · intro hanswer
        refine ⟨c, hc, ?_⟩
        rw [Bool.and_eq_true, decide_eq_true_iff]
        exact ⟨rfl, hanswer⟩

namespace Rule

/-- What is selected and called depends on what is answered to the question of the request, by the
oracle that the rule names if it tests one. -/
theorem selected_and_called_eq {A B : Answers} {req : Request} {r : Rule}
    (h : r.selector = oracleSelector → ∀ e, Entity.ofNat? r.value.toNat = some e →
      (A e).map (fun f => f req.question) = (B e).map fun f => f req.question) (i : Nat) :
  selected A req i r = selected B req i r ∧ called A req i r = called B req i r
  := by
  by_cases hselector : r.selector = oracleSelector
  · have hargument : ¬ oracleSelector ≤ lastArgument := by decide
    have hheight : oracleSelector ≠ heightSelector := by decide
    have htimestamp : oracleSelector ≠ timestampSelector := by decide
    rw [selected, selected, called, called, hselector, if_neg hargument, if_neg hheight,
      if_neg htimestamp, if_pos rfl, if_pos rfl, if_neg hargument, if_neg hheight,
      if_neg htimestamp, if_pos rfl, if_pos rfl]
    cases he : Entity.ofNat? r.value.toNat with
    | none => exact ⟨rfl, rfl⟩
    | some e =>
        have hanswer := h hselector e he
        simp only [Option.bind_some]
        revert hanswer
        cases A e with
        | none => cases B e <;> simp
        | some f => cases B e <;> simp +contextual
  · constructor
    · simp only [selected, if_neg hselector]
    · rw [called, called, if_neg hselector, if_neg hselector]

/-- When the answers of a panel in the calls of a rule are given to the rule, it comes to the
same. -/
theorem compared_and_called_eq {panel : Panel σ} {answers : Nat → Answers}
    (hnamed : ∀ i e, (answers i e).isSome = (panel e).isSome) {req : Request} {i : Nat} {r : Rule}
    {s : σ} (hcalls : ∀ c ∈ called (panel.answersAt s) req i r, c.IsAnsweredBy answers)
    (c : Comparison) :
  compared (panel.answersAt s) req i r c = compared (answers i) req i r c ∧
    called (panel.answersAt s) req i r = called (answers i) req i r
  := by
  have hanswer : r.selector = oracleSelector → ∀ e, Entity.ofNat? r.value.toNat = some e →
      (panel.answersAt s e).map (fun f => f req.question) =
        (answers i e).map fun f => f req.question := by
    intro hselector e he
    have hname := hnamed i e
    rw [called, if_pos hselector, he, Option.bind_some] at hcalls
    rw [Panel.answersAt] at hcalls ⊢
    cases ho : panel e with
    | none =>
        rw [ho, Option.isSome_none, Option.isSome_eq_false_iff, Option.isNone_iff_eq_none] at hname
        rw [hname]
        rfl
    | some o =>
        rw [ho] at hcalls
        obtain ⟨f, hf, hanswer⟩ := hcalls _ (List.mem_singleton_self _)
        rw [hf]
        exact congrArg some hanswer.symm
  obtain ⟨hselected, hcalled⟩ := selected_and_called_eq hanswer i
  exact ⟨by rw [compared, hselected, compared], hcalled⟩

/-! ### Evaluations and plain evaluations -/

/-- Calls that were made before change nothing. -/
theorem eraseDups_append_of_subset {cs ds : List Nat} (h : ds ⊆ cs) :
  (cs ++ ds).eraseDups = cs.eraseDups
  := by
  have hnone : ds.removeAll cs = [] := by
    rw [List.removeAll, List.filter_eq_nil_iff]
    intro i hi
    simpa using h hi
  rw [List.eraseDups_append, hnone, List.eraseDups_nil, List.append_nil]

/-- A call of a rule that made none before comes last. -/
theorem eraseDups_concat {cs : List Nat} {i : Nat} (h : i ∉ cs) :
  (cs ++ [i]).eraseDups = cs.eraseDups ++ [i]
  := by
  have hone : [i].removeAll cs = [i] := by
    rw [List.removeAll, List.filter_eq_self]
    intro j hj
    obtain rfl := List.mem_singleton.mp hj
    simpa using h
  rw [List.eraseDups_append, hone]
  rfl

/-- After a plain evaluation has made some calls, the calls in the trace are those without
repetitions, rules that are done are done with calls among those, and a rule about which nothing is
noted has made none. -/
structure Shared (rules : List Rule) (answers : Nat → Answers) (req : Request) (before : List Nat)
    (stack : List Nat) (marks : Vector Mark rules.length) (t : Trace) : Prop where
  marked : Marked (fun i x => ∃ cs ⊆ before, Consults rules answers req i x cs) stack marks
  pending : ∀ (i : Nat) (h : i < rules.length), marks[i] = .pending → i ∉ before
  asked : t.asked = before.eraseDups

namespace Shared

variable {rules : List Rule} {answers : Nat → Answers} {req : Request} {before stack : List Nat}
  {marks : Vector Mark rules.length} {t : Trace}

/-- At first no calls are made. -/
theorem start :
  Shared rules answers req [] [] (Vector.replicate rules.length .pending) .empty
  where
  marked := Marked.start
  pending _ _ _ hi := nomatch hi
  asked := rfl

/-- A plain evaluation that asks for a rule again repeats calls. -/
theorem again (h : Shared rules answers req before stack marks t) {cs : List Nat}
    (hcs : cs ⊆ before) :
  Shared rules answers req (before ++ cs) stack marks t
  where
  marked := h.marked.mono fun _ _ ⟨ds, hds, hx⟩ =>
    ⟨ds, List.Subset.trans hds (List.subset_append_left _ _), hx⟩
  pending i hi hmark hbefore := by
    rcases List.mem_append.mp hbefore with hold | hnew
    · exact h.pending i hi hmark hold
    · exact h.pending i hi hmark (hcs hnew)
  asked := by rw [h.asked, eraseDups_append_of_subset hcs]

/-- A rule that is begun is put on the stack. -/
theorem enter (h : Shared rules answers req before stack marks t) {i : Nat}
    (hi : i < rules.length) :
  Shared rules answers req before (i :: stack) (marks.set i .visiting) (t.enter i)
  where
  marked := h.marked.visit hi
  pending j hj hmark := h.pending j hj (pending_of_set hmark nofun).2
  asked := h.asked

/-- A rule that has a value is taken from the stack. -/
theorem finish {i : Nat} (h : Shared rules answers req before (i :: stack) marks t)
    (hi : i < rules.length) {x : Bool} {cs : List Nat} (hcs : cs ⊆ before)
    (hx : Consults rules answers req i (.ok x) cs) :
  Shared rules answers req before stack (marks.set i (.done x)) t
  where
  marked := h.marked.finish hi ⟨cs, hcs, hx⟩
  pending j hj hmark := h.pending j hj (pending_of_set hmark nofun).2
  asked := h.asked

/-- A rule that has made no calls may make its own. -/
theorem tell (h : Shared rules answers req before stack marks t) {i : Nat} (hi : i ∉ before)
    (hmark : ∀ h : i < rules.length, marks[i] ≠ .pending) {calls : List OracleCall}
    (hcalls : calls = [] ∨ ∃ c, calls = [c] ∧ c.rule = i) :
  Shared rules answers req (before ++ calls.map OracleCall.rule) stack marks (t.tell calls)
  := by
  rcases hcalls with rfl | ⟨c, rfl, rfl⟩
  · rw [List.map_nil, List.append_nil, Trace.tell_nil]
    exact h
  · refine ⟨?_, ?_, ?_⟩
    · apply h.marked.mono
      rintro j x ⟨ds, hds, hx⟩
      exact ⟨ds, List.Subset.trans hds (List.subset_append_left _ _), hx⟩
    · intro j hj hpending hbefore
      rcases List.mem_append.mp hbefore with hold | hnew
      · exact h.pending j hj hpending hold
      · obtain rfl := List.mem_singleton.mp hnew
        exact hmark hj hpending
    · change (t.calls ++ [c]).map OracleCall.rule = _
      rw [List.map_append, List.map_singleton, eraseDups_concat hi, ← h.asked]
      rfl

end Shared

/-- A computation comes to a result as specified, and so does a plain evaluation that has made some
calls before and makes more meanwhile, which is specified too. -/
def Follows {rules : List Rule} (answers : Nat → Answers) (req : Request)
    (before stack : List Nat) (P : Vector Mark rules.length → Trace → Prop)
    (m : StateT (Vector Mark rules.length) (ExceptT RuleError (StateM (σ × Trace))) Bool)
    (W : Except RuleError Bool → List Nat → Prop) : Prop :=
  Tells (OracleCall.IsAnsweredBy answers) P m
    (fun x marks t => ∃ cs, W (.ok x) cs ∧ Shared rules answers req (before ++ cs) stack marks t)
    fun e t => ∃ cs, W (.error e) cs ∧ t.asked = (before ++ cs).eraseDups

section

variable {rules : List Rule} {panel : Panel σ} {answers : Nat → Answers} {req : Request}

/-- A logic rule has a connective and the logic selector. -/
theorem not_combines {i : Nat} {r : Rule} (hr : rules[i]? = some r)
    (h : ∀ k, r.operator? = some (.connect k) → r.selector ≠ logicSelector) (k : Connective)
    (a b c : Nat) :
  ¬ Combines rules i k a b c
  := by
  rintro ⟨r', hr', hop, hselector, _⟩
  obtain rfl := Option.some.inj (hr.symm.trans hr')
  exact h k hop hselector

/-- Only comparisons with the answer of an oracle make calls. -/
theorem ownCalls_eq_nil {r : Rule}
    (h : ∀ c, r.operator? = some (.compare c) → r.selector ≠ oracleSelector) (A : Answers)
    (i : Nat) :
  ownCalls A req i r = []
  := by
  rw [ownCalls]
  split
  next c hop => rw [called, if_neg (h c hop), List.map_nil]
  next => rfl

/-- A logic rule comes to what it comes to by plain recursion, when its operands do. -/
theorem follows_evalM {i : Nat} {k : Connective} {a b c : BitVec 32}
    (hr : Combines rules i k a.toNat b.toNat c.toNat) {before stack : List Nat}
    {ask : BitVec 32 →
      StateT (Vector Mark rules.length) (ExceptT RuleError (StateM (σ × Trace))) Bool}
    (hask : ∀ j ∈ (k.formula a b c).operands, ∀ before, Follows answers req before stack
      (Shared rules answers req before stack) (ask j) (Consults rules answers req j.toNat)) :
  Follows answers req before stack (Shared rules answers req before stack)
    ((k.formula a b c).evalM ask) (Consults rules answers req i)
  := by
  rw [Connective.evalM_formula]
  apply (hask a (k.mem_operands a b c) before).bind
  · rintro e t ⟨as, has, hasked⟩
    exact ⟨as, Consults.failed hr has, hasked⟩
  · intro x
    have hnat := k.next_map BitVec.toNat x b c
    cases hnext : k.next x b c with
    | settled y =>
        rw [hnext] at hnat
        apply Tells.pure
        rintro marks t ⟨as, has, h⟩
        exact ⟨as, Consults.settled hr has hnat, h⟩
    | ask j f =>
        rw [hnext] at hnat
        -- the calls of the operand come after those of the first
        have hj := Tells.exists_and (C := fun as => Consults rules answers req a.toNat (.ok x) as)
          fun as => hask j (Connective.mem_operands_of_next hnext) (before ++ as)
        apply hj.bind
        · rintro e t ⟨as, has, js, hjs, hasked⟩
          refine ⟨as ++ js, Consults.resumed hr has hnat hjs, ?_⟩
          rw [hasked, List.append_assoc]
        · intro y
          apply Tells.pure
          rintro marks t ⟨as, has, js, hjs, h⟩
          refine ⟨as ++ js, Consults.resumed hr has hnat hjs, ?_⟩
          rw [← List.append_assoc]
          exact h

/-- A rule comes to what it comes to by plain recursion, when its operands do. -/
theorem follows_valueBy (hnamed : ∀ i e, (answers i e).isSome = (panel e).isSome) {i : Nat}
    {r : Rule} (hr : rules[i]? = some r) {before stack : List Nat}
    {ask : BitVec 32 →
      StateT (Vector Mark rules.length) (ExceptT RuleError (StateM (σ × Trace))) Bool}
    (hask : ∀ j ∈ r.operands, ∀ before, Follows answers req before stack
      (Shared rules answers req before stack) (ask j) (Consults rules answers req j.toNat)) :
  Follows answers req before stack
    (fun marks t => Shared rules answers req before stack marks t ∧ i ∉ before ∧
      ∀ h : i < rules.length, marks[i] ≠ .pending)
    (valueBy (panel.tracing i) req i r ask) (Consults rules answers req i)
  := by
  have hsays := says_clause r
  rw [operands] at hask
  rw [valueBy]
  generalize r.clause = clause at hsays hask ⊢
  cases hsays with
  | unknown hop =>
      have hx : Consults rules answers req i _ _ :=
        Consults.alone hr (not_combines hr (by simp [hop])) (Yields.unknown hr hop)
      rw [ownCalls_eq_nil (by simp [hop])] at hx
      apply Tells.throw
      rintro marks t ⟨h, -⟩
      exact ⟨[], hx, by rw [List.append_nil, h.asked]⟩
  | misplaced hop hmix =>
      have hx : Consults rules answers req i _ _ :=
        Consults.alone hr (not_combines hr (by grind [Operator.isLogic]))
          (Yields.misplaced hr hop hmix)
      rw [ownCalls_eq_nil (by grind [Operator.isLogic, logicSelector, oracleSelector])] at hx
      apply Tells.throw
      rintro marks t ⟨h, -⟩
      exact ⟨[], hx, by rw [List.append_nil, h.asked]⟩
  | @test c hop hselector =>
      have hx : Consults rules answers req i _ _ :=
        Consults.alone hr (not_combines hr (by simp [hop])) (Yields.compare hr hop hselector)
      rw [ownCalls, hop] at hx
      apply Tells.test
      rintro s marks t ⟨h, hnew, hmark⟩ hcalls
      obtain ⟨hcompared, hcalled⟩ := compared_and_called_eq hnamed hcalls c
      have htold := h.tell hnew hmark (called_eq (answers i) req i r)
      rw [hcompared, hcalled]
      revert hx
      cases compared (answers i) req i r c with
      | error e => exact fun hx => ⟨_, hx, htold.asked⟩
      | ok x => exact fun hx => ⟨_, hx, htold⟩
  | @combine k hop hselector =>
      have hcombines : Combines rules i k (unpack r.value).1.toNat (unpack r.value).2.1.toNat
          (unpack r.value).2.2.toNat := ⟨r, hr, hop, hselector, rfl, rfl, rfl⟩
      have hvalue : Follows answers req before stack (Shared rules answers req before stack)
          _ _ := follows_evalM hcombines hask
      exact hvalue.mono (fun _ _ h => h.1) (fun _ _ _ => id) fun _ _ => id

/-- A rule that is asked for comes to what it comes to by plain recursion, when the rules on the
stack have higher ranks and the budget is above its own. -/
theorem follows_measureAt (hnamed : ∀ i e, (answers i e).isSome = (panel e).isSome)
    {rank : Nat → Nat} (hrank : RankedBy rules rank) {limit budget : Nat} (nesting source : Nat)
    {i : Nat} (hi : i < rules.length) {stack : List Nat} (hstack : ∀ j ∈ stack, rank i < rank j)
    (hbudget : rank i < budget) (before : List Nat) :
  Follows answers req before stack (Shared rules answers req before stack)
    (measureAt (.tracer panel) rules req limit budget nesting source i)
    (Consults rules answers req i)
  := by
  induction budget generalizing nesting source i stack before with
  | zero => contradiction
  | succ budget ih =>
      have hr : rules[i]? = some rules[i] := List.getElem?_eq_getElem hi
      -- an operand has a lower rank than the rule, which joins the stack
      have hask : ∀ j ∈ rules[i].operands, ∀ before, Follows answers req before (i :: stack)
          (Shared rules answers req before (i :: stack))
          (measureAt (.tracer panel) rules req limit budget (nesting + 1) i j.toNat)
          (Consults rules answers req j.toNat) := by
        intro j hj before
        obtain ⟨hlt, hlower⟩ := hrank.2 i _ hr j hj
        apply ih (nesting + 1) i hlt _ (by omega)
        intro l hl
        rcases List.mem_cons.mp hl with rfl | hl
        · exact hlower
        · apply Nat.lt_trans hlower (hstack l hl)
      rw [measureAt, dif_pos hi]
      apply Tells.asked
      apply Tells.get
      intro marks
      cases hmark : marks[i] with
      | done x =>
          apply Tells.pure
          rintro _ t ⟨rfl, h⟩
          obtain ⟨cs, hcs, hx⟩ := h.marked.done i hi x hmark
          exact ⟨cs, hx, h.again hcs⟩
      | visiting =>
          apply Tells.throw
          rintro _ t ⟨rfl, h⟩
          exact absurd (hstack i (h.marked.visiting i hi hmark)) (Nat.lt_irrefl _)
      | pending =>
          have hvalue : Follows answers req before (i :: stack) _ _ _ :=
            follows_valueBy hnamed hr hask
          refine Tells.begun ?_ (hvalue.bind (fun _ _ => id) ?_)
          · rintro _ t ⟨rfl, h⟩
            refine ⟨h.enter hi, h.pending i hi hmark, fun _ => ?_⟩
            rw [Vector.getElem_set_self]
            exact Mark.noConfusion
          · intro x
            refine Tells.modify ?_ (Tells.pure fun _ _ => id)
            rintro marks t ⟨cs, hx, h⟩
            exact ⟨cs, hx, h.finish hi (List.subset_append_right _ _) hx⟩

/-- Rules that are asked for in turn, until one does not pass, come to what they come to by plain
recursion. -/
theorem follows_allM (hnamed : ∀ i e, (answers i e).isSome = (panel e).isSome)
    {rank : Nat → Nat} (hrank : RankedBy rules rank) {limit : Nat}
    (hlimit : rules.length ≤ limit + 1) (is : List (Fin rules.length)) (before : List Nat) :
  Follows answers req before [] (Shared rules answers req before [])
    (is.allM fun i : Fin rules.length =>
      measureAt (.tracer panel) rules req limit (limit + 1) 1 i i)
    (ConsultsAll rules answers req (is.map Fin.val))
  := by
  induction is generalizing before with
  | nil =>
      apply Tells.pure
      intro marks t h
      exact ⟨[], ConsultsAll.nil, by rwa [List.append_nil]⟩
  | cons i is ih =>
      have hi : Follows answers req before [] (Shared rules answers req before [])
          (measureAt (.tracer panel) rules req limit (limit + 1) 1 i i)
          (Consults rules answers req i) := by
        apply follows_measureAt hnamed hrank 1 i i.isLt _ _ before
        · intro j hj
          contradiction
        · apply Nat.lt_of_lt_of_le (hrank.1 i i.isLt) hlimit
      apply hi.bind
      · rintro e t ⟨cs, hx, hasked⟩
        exact ⟨cs, ConsultsAll.failed hx, hasked⟩
      · intro x
        cases x with
        | true =>
            have hrest := Tells.exists_and
              (C := fun cs => Consults rules answers req i (.ok true) cs)
              fun cs => ih (before ++ cs)
            apply hrest.mono (fun _ _ => id)
            · rintro y marks t ⟨cs, hx, ds, hy, h⟩
              refine ⟨cs ++ ds, ConsultsAll.next hx hy, ?_⟩
              rw [← List.append_assoc]
              exact h
            · rintro e t ⟨cs, hx, ds, he, hasked⟩
              refine ⟨cs ++ ds, ConsultsAll.next hx he, ?_⟩
              rw [hasked, List.append_assoc]
        | false =>
            apply Tells.pure
            rintro marks t ⟨cs, hx, h⟩
            exact ⟨cs, ConsultsAll.stop hx, h⟩

end

/-- The calls of an evaluation of an accepted sequence are those of the plain evaluation, without
repetitions. -/
theorem consultsAll_evaluate {rules : List Rule} (hcheck : checkStructure rules = .ok ())
    {panel : Panel σ} {req : Request} {limit : Nat} (hlimit : rules.length ≤ limit + 1) {s : σ}
    {answers : Nat → Answers} (h : panel.Gives answers (trace rules panel req limit s).calls) :
  ∃ cs, ConsultsAll rules answers req (topLevel rules)
      ((evaluate rules panel req limit).run.run s).1 cs ∧
    (trace rules panel req limit s).asked = cs.eraseDups
  := by
  obtain ⟨hroots, rank, hrank⟩ := of_checkStructure hcheck
  have hfound : Follows answers req [] [] (Shared rules answers req [] []) _
      (ConsultsAll rules answers req ((graph rules).sources.map Fin.val)) :=
    follows_allM h.named hrank hlimit (graph rules).sources []
  rw [map_sources] at hfound
  have hend := (hfound.mono (fun _ _ => id) (fun x _ t ⟨cs, hx, hs⟩ => ⟨cs, hx, hs.asked⟩)
    fun _ _ => id).run' (W := fun x t => ∃ cs, ConsultsAll rules answers req (topLevel rules) x cs ∧
      t.asked = ([] ++ cs).eraseDups) (Vector.replicate rules.length .pending) (s, .empty)
  have hrun := (traceAll_run rules panel req limit s).1
  rw [traceAll, measureAll, hroots] at hrun
  dsimp only at hrun
  rw [hrun] at hend
  exact hend h.answered Shared.start

/-- In an evaluation no rule is begun twice, whatever the rules, the oracles and the limit are, and
the rules that make calls make them in the order in which they are begun, so that none makes two.
Each call asks the question of the request, and none is made when there are no top-level rules to
begin with. The calls of an evaluation of an accepted sequence, when the depth allows for all rules,
are those of the plain evaluation without repetitions. -/
theorem evaluate_asks_once (rules : List Rule) (panel : Panel σ) (req : Request) (limit : Nat)
    (s : σ) :
  (traceAll rules panel req limit).run.run (s, .empty) =
      (((evaluate rules panel req limit).run.run s).1,
        (((evaluate rules panel req limit).run.run s).2, trace rules panel req limit s)) ∧
    (evaluate rules panel.recording req limit).run.run (s, []) =
      (((evaluate rules panel req limit).run.run s).1,
        (((evaluate rules panel req limit).run.run s).2,
          (trace rules panel req limit s).calls.map OracleCall.seen)) ∧
    (trace rules panel req limit s).IsOrderly rules panel req ∧
    (trace rules panel req limit s).asked.Nodup ∧
    (∀ e, roots rules = .error e → trace rules panel req limit s = .empty) ∧
    (checkStructure rules = .ok () → rules.length ≤ limit + 1 →
      (∃ answers, panel.Gives answers (trace rules panel req limit s).calls) ∧
        (∀ answers, panel.AnswersAs answers →
          panel.Gives (fun _ => answers) (trace rules panel req limit s).calls ∧
            ∀ x cs, ConsultsAll rules (fun _ => answers) req (topLevel rules) x cs →
              Passes rules answers req x) ∧
        ∀ answers, panel.Gives answers (trace rules panel req limit s).calls →
          ∃ cs, ConsultsAll rules answers req (topLevel rules)
              ((evaluate rules panel req limit).run.run s).1 cs ∧
            (trace rules panel req limit s).asked = cs.eraseDups ∧
            ∀ x ds, ConsultsAll rules answers req (topLevel rules) x ds →
              x = ((evaluate rules panel req limit).run.run s).1 ∧ ds = cs)
  := by
  obtain ⟨htraced, hcalls⟩ := traceAll_run rules panel req limit s
  have horderly := trace_isOrderly rules panel req limit s
  have hnodup := horderly.once.sublist horderly.inOrder
  refine ⟨htraced, hcalls, horderly, hnodup, ?_, ?_⟩
  · intro e he
    apply trace_of_roots he
  · intro hcheck hlimit
    refine ⟨?_, ?_, ?_⟩
    · exact Panel.exists_gives horderly.made hnodup
    · intro answers h
      exact ⟨h.gives horderly.made, fun _ _ hx => hx.allPass⟩
    · intro answers h
      obtain ⟨cs, hx, hasked⟩ := consultsAll_evaluate hcheck hlimit h
      exact ⟨cs, hx, hasked, fun _ _ hy => hy.unique hx⟩

/-! ### An example -/

/-- An oracle that says yes only the first time that it is asked. -/
def fickleAnswers : Panel Bool :=
  fun e => if e = ⟨3⟩ then some fun _ s => (s, false) else none

/-- The answers that the oracle gives in an evaluation that asks it once. -/
def firstAnswers : Answers :=
  fun e => if e = ⟨3⟩ then some fun _ => true else none

/-- A request with an argument. -/
def argumentRequest : Request :=
  ⟨⟨⟨7⟩, ⟨.createPermissions, ⟨9⟩⟩, [8]⟩, ⟨0, 0⟩⟩

/-- The two top-level rules share the oracle. A plain evaluation asks it once for each of them. -/
theorem consultsAll_sharedOperands :
  ConsultsAll sharedOperands (fun _ => firstAnswers) argumentRequest [0, 1] (.ok true) [2, 2]
  := by
  have htest : Consults sharedOperands (fun _ => firstAnswers) argumentRequest 2 (.ok true) [2] :=
    Consults.alone (r := .oracle ⟨3⟩) rfl (not_combines rfl fun _ h => nomatch h)
      (Yields.compare (c := .eq) (r := .oracle ⟨3⟩) rfl rfl (by decide))
  have hargument :
      Consults sharedOperands (fun _ => firstAnswers) argumentRequest 3 (.ok true) [] :=
    Consults.alone (r := .argument 0 (.compare .gt) 5) rfl (not_combines rfl fun _ h => nomatch h)
      (Yields.compare (c := .gt) (r := .argument 0 (.compare .gt) 5) rfl rfl (by decide))
  have hand : Combines sharedOperands 0 .and 2 3 0 :=
    ⟨.and 2 3, rfl, by decide, by decide, by decide, by decide, by decide⟩
  have hor : Combines sharedOperands 1 .or 2 3 0 :=
    ⟨.or 2 3, rfl, by decide, by decide, by decide, by decide, by decide⟩
  have hfirst : Consults sharedOperands (fun _ => firstAnswers) argumentRequest 0 (.ok true) [2] :=
    Consults.resumed hand htest rfl hargument
  have hsecond : Consults sharedOperands (fun _ => firstAnswers) argumentRequest 1 (.ok true) [2] :=
    Consults.settled hor htest rfl
  exact ConsultsAll.next hfirst (ConsultsAll.next hsecond ConsultsAll.nil)

/-- The evaluation asks it once only, and so is told yes for both. -/
theorem evaluate_asks_once_fickle :
  checkStructure sharedOperands = .ok () ∧
    fickleAnswers.Gives (fun _ => firstAnswers)
      (trace sharedOperands fickleAnswers argumentRequest 3 true).calls ∧
    ((evaluate sharedOperands fickleAnswers argumentRequest 3).run.run true).1 = .ok true ∧
    (trace sharedOperands fickleAnswers argumentRequest 3 true).asked = [2]
  := by
  have hcheck : checkStructure sharedOperands = .ok () := by decide +kernel
  have hcalls : (trace sharedOperands fickleAnswers argumentRequest 3 true).calls =
      [⟨2, ⟨3⟩, argumentRequest.question, true⟩] := by
    decide +kernel
  have hgives : fickleAnswers.Gives (fun _ => firstAnswers)
      (trace sharedOperands fickleAnswers argumentRequest 3 true).calls := by
    rw [hcalls]
    constructor
    · intro _ e
      rw [firstAnswers, fickleAnswers]
      split <;> rfl
    · intro c hc
      obtain rfl := List.mem_singleton.mp hc
      exact ⟨_, rfl, rfl⟩
  obtain ⟨_, _, _, _, _, haccepted⟩ :=
    evaluate_asks_once sharedOperands fickleAnswers argumentRequest 3 true
  obtain ⟨cs, _, hasked, hunique⟩ := (haccepted hcheck (by decide)).2.2 _ hgives
  rw [← map_sources, show (graph sharedOperands).sources.map Fin.val = [0, 1] by decide +kernel]
    at hunique
  obtain ⟨hresult, rfl⟩ := hunique _ _ consultsAll_sharedOperands
  exact ⟨hcheck, hgives, hresult.symm, hasked⟩

end Rule

end DelegatedAccess
