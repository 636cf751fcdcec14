import DelegatedAccess.Oracle.Basic
import DelegatedAccess.Rule.Clause
import DelegatedAccess.Rule.Error

/-!
# What rule sequences mean

The meaning of a rule sequence, given what oracles answer: a rule has a value or is in error,
and a sequence passes, or does not, or is in error. This is said by plain recursion on the
operands, with nothing noted on the way and without limits, and with values as natural
numbers. A rule on a cycle has no value and no error.

The main result of this module is that a sequence has at most one meaning.
-/

namespace DelegatedAccess

/-- What the oracles answer, by the entities that rules name them by. -/
abbrev Answers :=
  Entity → Option (Question → Bool)

/-- The oracles of a panel give these answers, whatever they do besides. -/
def Panel.AnswersAs {σ : Type} (panel : Panel σ) (answers : Answers) : Prop :=
  ∀ e, Option.Rel (fun o f => ∀ q s, ((o q).run s).1 = f q) (panel e) (answers e)

/-- What the oracles of a panel answer when they are asked in a state. -/
def Panel.answersAt {σ : Type} (panel : Panel σ) (s : σ) : Answers :=
  fun e => (panel e).map fun o q => ((o q).run s).1

/-- Oracles that give the same answers in every state give them in each. -/
theorem Panel.AnswersAs.answersAt_eq {σ : Type} {panel : Panel σ} {answers : Answers}
    (h : panel.AnswersAs answers) (s : σ) :
  panel.answersAt s = answers
  := by
  funext e
  have hrel := h e
  rw [answersAt]
  generalize panel e = o at hrel ⊢
  generalize answers e = f at hrel ⊢
  cases hrel with
  | none => rfl
  | some hanswer =>
      rw [Option.map_some]
      congr 1
      funext q
      apply hanswer

/-- Whether a number passes the comparison with another. -/
def Comparison.test (c : Comparison) (v w : Nat) : Bool :=
  match c with
  | .never => false
  | .eq => v = w
  | .ne => v ≠ w
  | .gt => v > w
  | .lt => v < w
  | .ge => v ≥ w
  | .le => v ≤ w
  | .positive => v > 0

/-- An error is about one rule by itself when it is about its bytes or about what it selects.
The others are about the structure of a sequence, the depth of an evaluation and the store. -/
def RuleError.IsLocal : RuleError → Prop
  | .argumentOutOfRange .. => True
  | .unknownOperator .. => True
  | .unknownSelector .. => True
  | .misplacedLogic _ => True
  | .unknownOracle .. => True
  | _ => False

namespace Rule

/-- The number that a rule at an index selects, and the number it is compared with. -/
def selected (answers : Answers) (req : Request) (i : Nat) (r : Rule) :
    Except RuleError (Nat × Nat) :=
  if r.selector ≤ lastArgument then
    match req.question.args[r.selector.toNat]? with
    | some v => .ok (v.toNat, r.value.toNat)
    | none => .error (.argumentOutOfRange i r.selector req.question.args.length)
  else if r.selector = heightSelector then .ok (req.context.height.toNat, r.value.toNat)
  else if r.selector = timestampSelector then .ok (req.context.timestamp.toNat, r.value.toNat)
  else if r.selector = oracleSelector then
    match (Entity.ofNat? r.value.toNat).bind answers with
    | some answer => .ok (if answer req.question then 1 else 0, 1)
    | none => .error (.unknownOracle i r.value)
  else if r.selector = ownValueSelector then .ok (r.value.toNat, r.value.toNat)
  else .error (.unknownSelector i r.selector)

/-- Whether the test that a rule at an index makes is passed. -/
def compared (answers : Answers) (req : Request) (i : Nat) (r : Rule) (c : Comparison) :
    Except RuleError Bool := do
  let (v, w) ← selected answers req i r
  return c.test v w

/-- The rule at an index is a logic rule with some connective and operands. -/
def Combines (rules : List Rule) (i : Nat) (k : Connective) (a b c : Nat) : Prop :=
  ∃ r, rules[i]? = some r ∧ r.operator? = some (.connect k) ∧ r.selector = logicSelector ∧
    a = (unpack r.value).1.toNat ∧ b = (unpack r.value).2.1.toNat ∧
    c = (unpack r.value).2.2.toNat

/-- The value or the error of the rule at an index. -/
inductive Yields (rules : List Rule) (answers : Answers) (req : Request) :
    Nat → Except RuleError Bool → Prop
  | unknown {i : Nat} {r : Rule} (hr : rules[i]? = some r) (hop : r.operator? = none) :
      Yields rules answers req i (.error (.unknownOperator i r.code))
  | misplaced {i : Nat} {r : Rule} {op : Operator} (hr : rules[i]? = some r)
      (hop : r.operator? = some op) (hmix : ¬ (op.isLogic = true ↔ r.selector = logicSelector)) :
      Yields rules answers req i (.error (.misplacedLogic i))
  | compare {i : Nat} {r : Rule} {c : Comparison} (hr : rules[i]? = some r)
      (hop : r.operator? = some (.compare c)) (hselector : r.selector ≠ logicSelector) :
      Yields rules answers req i (compared answers req i r c)
  | failed {i a b c : Nat} {k : Connective} {e : RuleError} (hr : Combines rules i k a b c)
      (ha : Yields rules answers req a (.error e)) :
      Yields rules answers req i (.error e)
  | not {i a b c : Nat} {x : Bool} (hr : Combines rules i .not a b c)
      (ha : Yields rules answers req a (.ok x)) :
      Yields rules answers req i (.ok !x)
  | andFalse {i a b c : Nat} (hr : Combines rules i .and a b c)
      (ha : Yields rules answers req a (.ok false)) :
      Yields rules answers req i (.ok false)
  | andTrue {i a b c : Nat} {y : Except RuleError Bool} (hr : Combines rules i .and a b c)
      (ha : Yields rules answers req a (.ok true)) (hb : Yields rules answers req b y) :
      Yields rules answers req i y
  | orTrue {i a b c : Nat} (hr : Combines rules i .or a b c)
      (ha : Yields rules answers req a (.ok true)) :
      Yields rules answers req i (.ok true)
  | orFalse {i a b c : Nat} {y : Except RuleError Bool} (hr : Combines rules i .or a b c)
      (ha : Yields rules answers req a (.ok false)) (hb : Yields rules answers req b y) :
      Yields rules answers req i y
  | xor {i a b c : Nat} {x y : Bool} (hr : Combines rules i .xor a b c)
      (ha : Yields rules answers req a (.ok x)) (hb : Yields rules answers req b (.ok y)) :
      Yields rules answers req i (.ok (x ^^ y))
  | xorFailed {i a b c : Nat} {x : Bool} {e : RuleError} (hr : Combines rules i .xor a b c)
      (ha : Yields rules answers req a (.ok x)) (hb : Yields rules answers req b (.error e)) :
      Yields rules answers req i (.error e)
  | ifTrue {i a b c : Nat} {y : Except RuleError Bool} (hr : Combines rules i .ifElse a b c)
      (ha : Yields rules answers req a (.ok true)) (hb : Yields rules answers req b y) :
      Yields rules answers req i y
  | ifFalse {i a b c : Nat} {z : Except RuleError Bool} (hr : Combines rules i .ifElse a b c)
      (ha : Yields rules answers req a (.ok false)) (hc : Yields rules answers req c z) :
      Yields rules answers req i z

/-- The indices of the rules that no logic rule refers to, in order. -/
def topLevel (rules : List Rule) : List Nat :=
  (List.range rules.length).filter fun i =>
    decide (∀ r ∈ rules, ∀ j ∈ r.operands, j.toNat ≠ i)

/-- Whether all rules of a list pass: the first one that does not or is in error decides. -/
inductive AllPass (rules : List Rule) (answers : Answers) (req : Request) :
    List Nat → Except RuleError Bool → Prop
  | nil : AllPass rules answers req [] (.ok true)
  | stop {i : Nat} {is : List Nat} (hi : Yields rules answers req i (.ok false)) :
      AllPass rules answers req (i :: is) (.ok false)
  | failed {i : Nat} {is : List Nat} {e : RuleError}
      (hi : Yields rules answers req i (.error e)) :
      AllPass rules answers req (i :: is) (.error e)
  | next {i : Nat} {is : List Nat} {y : Except RuleError Bool}
      (hi : Yields rules answers req i (.ok true)) (his : AllPass rules answers req is y) :
      AllPass rules answers req (i :: is) y

/-- Whether a sequence passes. -/
def Passes (rules : List Rule) (answers : Answers) (req : Request) :
    Except RuleError Bool → Prop :=
  AllPass rules answers req (topLevel rules)

/-! ### A sequence has one meaning -/

variable {rules : List Rule} {answers : Answers} {req : Request}

/-- A logic rule has one connective and one operand in each place. -/
theorem Combines.unique {i a b c a' b' c' : Nat} {k k' : Connective}
    (h : Combines rules i k a b c) (h' : Combines rules i k' a' b' c') :
  k = k' ∧ a = a' ∧ b = b' ∧ c = c'
  := by
  obtain ⟨r, hr, hop, _, rfl, rfl, rfl⟩ := h
  obtain ⟨r', hr', hop', _, rfl, rfl, rfl⟩ := h'
  obtain rfl := Option.some.inj (hr.symm.trans hr')
  obtain rfl := Operator.connect.inj (Option.some.inj (hop.symm.trans hop'))
  exact ⟨rfl, rfl, rfl, rfl⟩

/-- The value or the error of a logic rule whose first operand has a value, when `Y` and `Z`
say what the other two come to. -/
def Resumes (k : Connective) (x : Bool) (Y Z : Except RuleError Bool → Prop)
    (v : Except RuleError Bool) : Prop :=
  match k, x with
  | .not, x => v = .ok !x
  | .and, true => Y v
  | .and, false => v = .ok false
  | .or, true => v = .ok true
  | .or, false => Y v
  | .xor, x => (∃ y, Y (.ok y) ∧ v = .ok (x ^^ y)) ∨ ∃ e, Y (.error e) ∧ v = .error e
  | .ifElse, true => Y v
  | .ifElse, false => Z v

/-- What a logic rule comes to follows from what its operands come to. -/
theorem Yields.failed_or_resumes {i a b c : Nat} {k : Connective} {v : Except RuleError Bool}
    (hv : Yields rules answers req i v) (hr : Combines rules i k a b c) :
  (∃ e, Yields rules answers req a (.error e) ∧ v = .error e) ∨
    ∃ x, Yields rules answers req a (.ok x) ∧
      Resumes k x (Yields rules answers req b) (Yields rules answers req c) v
  := by
  have hlogic : ∀ {r : Rule} {op : Operator}, rules[i]? = some r → r.operator? = some op →
      op = .connect k ∧ r.selector = logicSelector := by
    intro r op hr' hop'
    obtain ⟨r₁, hr₁, hop₁, hselector, _⟩ := hr
    obtain rfl := Option.some.inj (hr₁.symm.trans hr')
    exact ⟨Option.some.inj (hop'.symm.trans hop₁), hselector⟩
  cases hv with
  | unknown hr' hop =>
      obtain ⟨r₁, hr₁, hop₁, _⟩ := hr
      obtain rfl := Option.some.inj (hr₁.symm.trans hr')
      rw [hop] at hop₁
      contradiction
  | misplaced hr' hop hmix =>
      obtain ⟨rfl, hselector⟩ := hlogic hr' hop
      exact absurd (iff_of_true rfl hselector) hmix
  | compare hr' hop hselector => exact absurd (hlogic hr' hop).2 hselector
  | failed hr' ha =>
      obtain ⟨rfl, rfl, rfl, rfl⟩ := hr.unique hr'
      exact Or.inl ⟨_, ha, rfl⟩
  | not hr' ha =>
      obtain ⟨rfl, rfl, rfl, rfl⟩ := hr.unique hr'
      exact Or.inr ⟨_, ha, rfl⟩
  | andFalse hr' ha =>
      obtain ⟨rfl, rfl, rfl, rfl⟩ := hr.unique hr'
      exact Or.inr ⟨_, ha, rfl⟩
  | andTrue hr' ha hb =>
      obtain ⟨rfl, rfl, rfl, rfl⟩ := hr.unique hr'
      exact Or.inr ⟨_, ha, hb⟩
  | orTrue hr' ha =>
      obtain ⟨rfl, rfl, rfl, rfl⟩ := hr.unique hr'
      exact Or.inr ⟨_, ha, rfl⟩
  | orFalse hr' ha hb =>
      obtain ⟨rfl, rfl, rfl, rfl⟩ := hr.unique hr'
      exact Or.inr ⟨_, ha, hb⟩
  | xor hr' ha hb =>
      obtain ⟨rfl, rfl, rfl, rfl⟩ := hr.unique hr'
      exact Or.inr ⟨_, ha, Or.inl ⟨_, hb, rfl⟩⟩
  | xorFailed hr' ha hb =>
      obtain ⟨rfl, rfl, rfl, rfl⟩ := hr.unique hr'
      exact Or.inr ⟨_, ha, Or.inr ⟨_, hb, rfl⟩⟩
  | ifTrue hr' ha hb =>
      obtain ⟨rfl, rfl, rfl, rfl⟩ := hr.unique hr'
      exact Or.inr ⟨_, ha, hb⟩
  | ifFalse hr' ha hc =>
      obtain ⟨rfl, rfl, rfl, rfl⟩ := hr.unique hr'
      exact Or.inr ⟨_, ha, hc⟩

/-- A logic rule whose first operand has just one value comes to what follows from the others
with this value. -/
theorem Yields.resumes {i a b c : Nat} {k : Connective} {x : Bool} {v : Except RuleError Bool}
    (hv : Yields rules answers req i v) (hr : Combines rules i k a b c)
    (ha : ∀ {w : Except RuleError Bool}, Yields rules answers req a w → .ok x = w) :
  Resumes k x (Yields rules answers req b) (Yields rules answers req c) v
  := by
  rcases hv.failed_or_resumes hr with ⟨e, he, _⟩ | ⟨y, hy, hrest⟩
  · have hne := ha he
    contradiction
  · obtain rfl := Except.ok.inj (ha hy)
    exact hrest

/-- A rule that is no logic rule comes to what its clause says. -/
theorem eq_of_yields {i : Nat} {v w : Except RuleError Bool} (hv : Yields rules answers req i v)
    (hw : Yields rules answers req i w) (hr : ∀ k a b c, ¬ Combines rules i k a b c) :
  v = w
  := by
  cases hv with
  | unknown hr hop => cases hw <;> grind
  | misplaced hr hop hmix => cases hw <;> grind [Operator.isLogic]
  | compare hr hop hselector => cases hw <;> grind [Operator.isLogic]
  | _ => grind

/-- A rule has one value or one error. -/
theorem Yields.unique {i : Nat} {v w : Except RuleError Bool} (hv : Yields rules answers req i v)
    (hw : Yields rules answers req i w) :
  v = w
  := by
  induction hv generalizing w with
  | unknown hr hop =>
      apply eq_of_yields (Yields.unknown hr hop) hw
      rintro k a b c ⟨r', hr', hop', _⟩
      grind
  | misplaced hr hop hmix =>
      apply eq_of_yields (Yields.misplaced hr hop hmix) hw
      rintro k a b c ⟨r', hr', hop', hselector, _⟩
      grind [Operator.isLogic]
  | compare hr hop hselector =>
      apply eq_of_yields (Yields.compare hr hop hselector) hw
      rintro k a b c ⟨r', hr', hop', hselector', _⟩
      grind
  | failed hr _ iha =>
      rcases hw.failed_or_resumes hr with ⟨e, ha, rfl⟩ | ⟨x, ha, _⟩
      · apply iha ha
      · have hne := iha ha
        contradiction
  | not hr _ iha => exact (hw.resumes hr iha).symm
  | andFalse hr _ iha => exact (hw.resumes hr iha).symm
  | andTrue hr _ _ iha ihb => apply ihb (hw.resumes hr iha)
  | orTrue hr _ iha => exact (hw.resumes hr iha).symm
  | orFalse hr _ _ iha ihb => apply ihb (hw.resumes hr iha)
  | xor hr _ _ iha ihb =>
      rcases hw.resumes hr iha with ⟨y, hb, rfl⟩ | ⟨e, hb, _⟩
      · rw [Except.ok.inj (ihb hb)]
      · have hne := ihb hb
        contradiction
  | xorFailed hr _ _ iha ihb =>
      rcases hw.resumes hr iha with ⟨y, hb, _⟩ | ⟨e, hb, rfl⟩
      · have hne := ihb hb
        contradiction
      · apply ihb hb
  | ifTrue hr _ _ iha ihb => apply ihb (hw.resumes hr iha)
  | ifFalse hr _ _ iha ihc => apply ihc (hw.resumes hr iha)

/-- All rules of a list pass, or do not, or are in error, in one way. -/
theorem AllPass.unique {is : List Nat} {v w : Except RuleError Bool}
    (hv : AllPass rules answers req is v) (hw : AllPass rules answers req is w) :
  v = w
  := by
  induction hv with
  | nil =>
      cases hw
      rfl
  | stop hi =>
      cases hw with
      | stop _ => rfl
      | failed hi' => apply hi.unique hi'
      | next hi' _ => exact nomatch hi.unique hi'
  | failed hi =>
      cases hw with
      | stop hi' => apply hi.unique hi'
      | failed hi' => apply hi.unique hi'
      | next hi' _ => exact nomatch hi.unique hi'
  | next hi _ ih =>
      cases hw with
      | stop hi' => exact nomatch hi.unique hi'
      | failed hi' => exact nomatch hi.unique hi'
      | next _ his => apply ih his

/-! ### Errors -/

/-- A test is in error only about what it selects. -/
theorem isLocal_of_compared {i : Nat} {r : Rule} {c : Comparison} {e : RuleError}
    (h : compared answers req i r c = .error e) :
  e.IsLocal
  := by
  rw [compared] at h
  cases hsel : selected answers req i r with
  | ok x =>
      rw [hsel] at h
      contradiction
  | error e' =>
      rw [hsel] at h
      obtain rfl := Except.error.inj h
      rw [selected] at hsel
      grind [RuleError.IsLocal]

/-- A rule is in error only about one rule by itself. -/
theorem Yields.isLocal {i : Nat} {v : Except RuleError Bool} (h : Yields rules answers req i v)
    {e : RuleError} (he : v = .error e) :
  e.IsLocal
  := by
  induction h with
  | unknown hr hop =>
      obtain rfl := Except.error.inj he
      trivial
  | misplaced hr hop hmix =>
      obtain rfl := Except.error.inj he
      trivial
  | compare hr hop hselector => apply isLocal_of_compared he
  | failed _ _ iha => apply iha he
  | not _ _ _ => contradiction
  | andFalse _ _ _ => contradiction
  | andTrue _ _ _ _ ihb => apply ihb he
  | orTrue _ _ _ => contradiction
  | orFalse _ _ _ _ ihb => apply ihb he
  | xor _ _ _ _ _ => contradiction
  | xorFailed _ _ _ _ ihb => apply ihb he
  | ifTrue _ _ _ _ ihb => apply ihb he
  | ifFalse _ _ _ _ ihc => apply ihc he

/-- A list of rules is in error only about one rule by itself. -/
theorem AllPass.isLocal {is : List Nat} {v : Except RuleError Bool}
    (h : AllPass rules answers req is v) {e : RuleError} (he : v = .error e) :
  e.IsLocal
  := by
  induction h with
  | nil => contradiction
  | stop _ => contradiction
  | failed hi => apply hi.isLocal he
  | next _ _ ih => apply ih he

end Rule

end DelegatedAccess
