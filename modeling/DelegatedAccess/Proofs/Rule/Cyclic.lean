import DelegatedAccess.Proofs.Rule.Acceptance
import DelegatedAccess.Proofs.Rule.Sharing

/-!
# Evaluations of rejected sequences

A sequence that the check for structure rejects may be stored all the same, and then it is
evaluated. Stray operands and rules out of reach are found before any rule is asked for. Cycles are
not: an evaluation notices a cycle when a rule is asked for while it is being evaluated, and it
asks only for the rules that plain recursion asks for.

The main result of this module is that an evaluation of a sequence with a cycle comes to a value
only if plain recursion does, with the answers that the oracles have given. If the depth allows for
all rules, it fails whenever plain recursion comes to no value. Hence a cycle beside the rules that
are asked for goes unnoticed.
-/

namespace DelegatedAccess

variable {σ ν α : Type}

/-- What is so whatever the notes are stays so. -/
theorem Tells.and {C : Prop} {F : OracleCall → Prop} {P : ν → Trace → Prop} {ε : Type}
    {Q : α → ν → Trace → Prop} {E : ε → Trace → Prop}
    {m : StateT ν (ExceptT ε (StateM (σ × Trace))) α} (h : Tells F P m Q E) :
  Tells F (fun v t => C ∧ P v t) m (fun a v t => C ∧ Q a v t) fun e t => C ∧ E e t
  := by
  intro v u
  refine ⟨(h v u).1, ?_⟩
  rintro hF ⟨hC, hP⟩
  have hend := (h v u).2 hF hP
  revert hend
  cases ((m.run v).run.run u).1 with
  | error e => exact fun hend => ⟨hC, hend⟩
  | ok y => exact fun hend => ⟨hC, hend⟩

namespace Rule

/-! ### What plain recursion asks for -/

section

variable {rules : List Rule} {answers : Nat → Answers} {req : Request}

/-- The rule at an index comes to a value or an error by plain recursion. -/
def Comes (rules : List Rule) (answers : Nat → Answers) (req : Request) (i : Nat)
    (x : Except RuleError Bool) : Prop :=
  ∃ cs, Consults rules answers req i x cs

/-- Plain recursion asks for another rule when it comes to the rule at an index: for the first
operand, and for the one that follows from its value. -/
def Asks (rules : List Rule) (answers : Nat → Answers) (req : Request) (i j : Nat) : Prop :=
  ∃ k a b c, Combines rules i k a b c ∧
    (j = a ∨ ∃ x f, Comes rules answers req a (.ok x) ∧ k.next x b c = .ask j f)

/-- Plain recursion comes to one thing. -/
theorem Comes.unique {i : Nat} {x y : Except RuleError Bool} (hx : Comes rules answers req i x)
    (hy : Comes rules answers req i y) :
  x = y
  := by
  obtain ⟨cs, hx⟩ := hx
  obtain ⟨ds, hy⟩ := hy
  exact (hx.unique hy).1

/-- A logic rule asks for its first operand, or for the one that follows from its value. -/
theorem Asks.of_combines {i j a b c : Nat} {k : Connective} (h : Asks rules answers req i j)
    (hr : Combines rules i k a b c) :
  j = a ∨ ∃ x f, Comes rules answers req a (.ok x) ∧ k.next x b c = .ask j f
  := by
  obtain ⟨k', a', b', c', hr', h⟩ := h
  obtain ⟨rfl, rfl, rfl, rfl⟩ := hr.unique hr'
  exact h

/-- What a rule asks for is an operand. -/
theorem Asks.refers {i j : Nat} (h : Asks rules answers req i j) :
  Refers rules i j
  := by
  obtain ⟨k, a, b, c, hr, rfl | ⟨x, f, _, hnext⟩⟩ := h
  · exact ⟨_, ⟨k, j, b, c, hr, rfl⟩, by cases k <;> simp [Connective.arity]⟩
  · refine ⟨_, ⟨k, a, b, c, hr, rfl⟩, ?_⟩
    cases k <;> cases x <;> simp_all [Connective.next, Connective.arity]

/-- A rule that comes to something does so by way of all that it asks for. -/
theorem Comes.of_asks {i j : Nat} {x : Except RuleError Bool} (h : Comes rules answers req i x)
    (hij : Asks rules answers req i j) :
  ∃ y, Comes rules answers req j y
  := by
  obtain ⟨cs, h⟩ := h
  obtain ⟨k, a, b, c, hr, hask⟩ := hij
  obtain ⟨w, as, ha, hrest⟩ := h.of_combines hr
  rcases hask with rfl | ⟨y, f, ⟨ds, hy⟩, hnext⟩
  · exact ⟨w, as, ha⟩
  · obtain ⟨rfl, _⟩ := ha.unique hy
    dsimp only at hrest
    rw [hnext] at hrest
    obtain ⟨z, js, hj, _⟩ := hrest
    exact ⟨z, js, hj⟩

/-- On a cycle a rule asks for another one on a cycle. -/
theorem exists_asks_of_transGen {i : Nat} (h : Relation.TransGen (Asks rules answers req) i i) :
  ∃ j, Asks rules answers req i j ∧ Relation.TransGen (Asks rules answers req) j j
  := by
  obtain ⟨j, hij, hji⟩ := Relation.TransGen.head'_iff.mp h
  exact ⟨j, hij, Relation.TransGen.tail' hji hij⟩

/-- A rule that asks for itself in the end comes to nothing. -/
theorem not_comes_of_transGen {i : Nat} (h : Relation.TransGen (Asks rules answers req) i i)
    (x : Except RuleError Bool) :
  ¬ Comes rules answers req i x
  := by
  rintro ⟨cs, hx⟩
  obtain ⟨j, hij, hj⟩ := exists_asks_of_transGen h
  induction hx generalizing j with
  | alone _ hnot _ =>
      obtain ⟨k, a, b, c, hr, _⟩ := hij
      exact hnot k a b c hr
  | failed hr ha iha =>
      rcases hij.of_combines hr with rfl | ⟨y, f, hy, _⟩
      · obtain ⟨l, hjl, hl⟩ := exists_asks_of_transGen hj
        exact iha hj l hjl hl
      · exact nomatch hy.unique ⟨_, ha⟩
  | settled hr ha hnext iha =>
      rcases hij.of_combines hr with rfl | ⟨y, f, hy, hask⟩
      · obtain ⟨l, hjl, hl⟩ := exists_asks_of_transGen hj
        exact iha hj l hjl hl
      · obtain rfl := Except.ok.inj (hy.unique ⟨_, ha⟩)
        exact nomatch hnext.symm.trans hask
  | resumed hr ha hnext _ iha ihj =>
      obtain ⟨l, hjl, hl⟩ := exists_asks_of_transGen hj
      rcases hij.of_combines hr with rfl | ⟨y, f, hy, hask⟩
      · exact iha hj l hjl hl
      · obtain rfl := Except.ok.inj (hy.unique ⟨_, ha⟩)
        obtain ⟨rfl, _⟩ := Next.ask.inj (hnext.symm.trans hask)
        exact ihj hj l hjl hl

/-- The rules on a stack and the one at an index are rules of the sequence, none is on the stack
twice, and each of those asks in the end for the rule at the index. -/
structure LeadsTo (rules : List Rule) (answers : Nat → Answers) (req : Request)
    (stack : List Nat) (i : Nat) : Prop where
  index_lt : i < rules.length
  nodup : stack.Nodup
  lt : ∀ j ∈ stack, j < rules.length
  asks : ∀ j ∈ stack, Relation.TransGen (Asks rules answers req) j i

namespace LeadsTo

variable {stack : List Nat} {i : Nat}

/-- The empty stack leads to any rule. -/
theorem nil {i : Nat} (hi : i < rules.length) :
  LeadsTo rules answers req [] i
  where
  index_lt := hi
  nodup := List.nodup_nil
  lt _ hj := nomatch hj
  asks _ hj := nomatch hj

/-- A rule that is put on the stack leads to what it asks for. -/
theorem push (h : LeadsTo rules answers req stack i) (hin : InRange rules) (hnot : i ∉ stack)
    {j : Nat} (hij : Asks rules answers req i j) :
  LeadsTo rules answers req (i :: stack) j
  where
  index_lt := hin i j hij.refers
  nodup := List.nodup_cons.mpr ⟨hnot, h.nodup⟩
  lt := List.forall_mem_cons.mpr ⟨h.index_lt, h.lt⟩
  asks := List.forall_mem_cons.mpr ⟨.single hij, fun k hk => (h.asks k hk).tail hij⟩

/-- A rule that is asked for while it is on the stack comes to nothing. -/
theorem not_comes (h : LeadsTo rules answers req stack i) (hi : i ∈ stack)
    (x : Except RuleError Bool) :
  ¬ Comes rules answers req i x
  := not_comes_of_transGen (h.asks i hi) x

/-- A stack is no higher than the number of rules. -/
theorem length_le (h : LeadsTo rules answers req stack i) :
  stack.length ≤ rules.length
  := length_le_of_nodup h.nodup h.lt

/-- A stack as high as the number of rules has all of them on it. -/
theorem mem_of_length (h : LeadsTo rules answers req stack i)
    (hlength : rules.length ≤ stack.length) :
  i ∈ stack
  := by
  by_contra hnot
  have hle : (i :: stack).length ≤ rules.length := by
    apply length_le_of_nodup
    · exact List.nodup_cons.mpr ⟨hnot, h.nodup⟩
    · exact List.forall_mem_cons.mpr ⟨h.index_lt, h.lt⟩
  rw [List.length_cons] at hle
  omega

end LeadsTo

end

/-! ### What an evaluation comes to -/

section

variable {rules : List Rule} {answers : Nat → Answers} {req : Request} {limit : Nat}

/-- An evaluation is cut off: it has met a cycle, or it is too deep. It is never too deep when the
limit is not below the number of rules. -/
def IsCutOff (rules : List Rule) (limit : Nat) : Except RuleError Bool → Prop
  | .error (.cycle _) => True
  | .error (.depthExceeded d) => d = limit ∧ limit < rules.length
  | _ => False

/-- What an evaluation may come to, if plain recursion comes to what `W` says: to that, or it is cut
off. If the depth allows for all rules, it is cut off only when plain recursion comes to nothing. -/
def Ends (rules : List Rule) (limit : Nat) (W : Except RuleError Bool → Prop)
    (x : Except RuleError Bool) : Prop :=
  W x ∨ IsCutOff rules limit x ∧ (rules.length ≤ limit + 1 → ∀ y, ¬ W y)

/-- An evaluation that comes to a value is not cut off. -/
theorem Ends.ok {W : Except RuleError Bool → Prop} {x : Bool} (h : Ends rules limit W (.ok x)) :
  W (.ok x)
  := h.resolve_right fun hcut => hcut.1

/-- An error is passed on. -/
theorem Ends.error {W U : Except RuleError Bool → Prop} {e : RuleError}
    (h : Ends rules limit W (.error e)) (herror : W (.error e) → U (.error e))
    (hsome : ∀ y, U y → ∃ x, W x) :
  Ends rules limit U (.error e)
  := by
  rcases h with h | ⟨hcut, hnone⟩
  · exact Or.inl (herror h)
  · refine Or.inr ⟨hcut, ?_⟩
    intro hlimit y hy
    obtain ⟨x, hx⟩ := hsome y hy
    exact hnone hlimit x hx

/-- The rules noted as being evaluated are those on the stack, and what is noted as the value of a
rule is one that plain recursion comes to. -/
structure Held (rules : List Rule) (answers : Nat → Answers) (req : Request)
    (stack : List Nat) (marks : Vector Mark rules.length) : Prop
    extends Marked (Comes rules answers req) stack marks where
  held : ∀ (i : Nat) (h : i < rules.length), i ∈ stack → marks[i] = .visiting

namespace Held

variable {stack : List Nat} {marks : Vector Mark rules.length}

/-- At first nothing is noted. -/
theorem start :
  Held rules answers req [] (Vector.replicate rules.length .pending)
  where
  toMarked := Marked.start
  held _ _ hi := nomatch hi

/-- A rule that is marked is put on the stack. -/
theorem visit (h : Held rules answers req stack marks) {i : Nat} (hi : i < rules.length) :
  Held rules answers req (i :: stack) (marks.set i .visiting)
  where
  toMarked := h.toMarked.visit hi
  held j hj hmem := by
    rw [Vector.getElem_set]
    split
    next => rfl
    next hij => apply h.held j hj (List.mem_of_ne_of_mem (Ne.symm hij) hmem)

/-- A rule whose value is noted is taken from the stack. -/
theorem finish {i : Nat} (h : Held rules answers req (i :: stack) marks) (hi : i < rules.length)
    (hnot : i ∉ stack) {x : Bool} (hx : Comes rules answers req i (.ok x)) :
  Held rules answers req stack (marks.set i (.done x))
  where
  toMarked := h.toMarked.finish hi hx
  held j hj hmem := by
    rw [Vector.getElem_set]
    split
    next hij => exact absurd (hij ▸ hmem) hnot
    next => apply h.held j hj (List.mem_cons_of_mem i hmem)

end Held

/-- From notes with some property a computation comes to what an evaluation may come to, and leaves
notes with the property. -/
def Settles (answers : Nat → Answers) (rules : List Rule) (limit : Nat)
    (P P' : ν → Prop) (m : StateT ν (ExceptT RuleError (StateM (σ × Trace))) Bool)
    (W : Except RuleError Bool → Prop) : Prop :=
  Tells (OracleCall.IsAnsweredBy answers) (fun v _ => P v) m
    (fun x v _ => W (.ok x) ∧ P' v) fun e _ => Ends rules limit W (.error e)

/-- A logic rule comes to what an evaluation may come to, when its operands do so if they are asked
for. -/
theorem settles_evalM {P : ν → Prop} {i : Nat} {k : Connective} {a b c : BitVec 32}
    {ask : BitVec 32 → StateT ν (ExceptT RuleError (StateM (σ × Trace))) Bool}
    (hr : Combines rules i k a.toNat b.toNat c.toNat)
    (hask : ∀ j, Settles answers rules limit (fun v => Asks rules answers req i j.toNat ∧ P v) P
      (ask j) (Comes rules answers req j.toNat)) :
  Settles answers rules limit P P ((k.formula a b c).evalM ask) (Comes rules answers req i)
  := by
  have hfirst : Asks rules answers req i a.toNat := ⟨k, _, _, _, hr, .inl rfl⟩
  have ha : Tells _ (fun v _ => P v) (ask a) _ _ :=
    (hask a).mono (fun _ _ h => ⟨hfirst, h⟩) (fun _ _ _ => id) fun _ _ => id
  rw [Connective.evalM_formula]
  apply ha.bind
  · intro e _ h
    apply h.error
    · rintro ⟨cs, hx⟩
      exact ⟨cs, Consults.failed hr hx⟩
    · exact fun y hy => hy.of_asks hfirst
  · intro x
    have hnat := k.next_map BitVec.toNat x b c
    cases hnext : k.next x b c with
    | settled y =>
        rw [hnext] at hnat
        apply Tells.pure
        rintro v _ ⟨⟨cs, hx⟩, hv⟩
        exact ⟨⟨cs, Consults.settled hr hx hnat⟩, hv⟩
    | ask j f =>
        rw [hnext] at hnat
        have hasks : Comes rules answers req a.toNat (.ok x) →
            Asks rules answers req i j.toNat :=
          fun hx => ⟨k, _, _, _, hr, .inr ⟨x, f, hx, hnat⟩⟩
        have hresumed : ∀ {z : Except RuleError Bool}, Comes rules answers req a.toNat (.ok x) →
            Comes rules answers req j.toNat z → Comes rules answers req i (z.map f) := by
          rintro z ⟨cs, hx⟩ ⟨ds, hz⟩
          exact ⟨_, Consults.resumed hr hx hnat hz⟩
        have hj : Tells _ (fun v _ => Comes rules answers req a.toNat (.ok x) ∧ P v) (ask j) _ _ :=
          ((hask j).and (C := Comes rules answers req a.toNat (.ok x))).mono
            (fun _ _ h => ⟨h.1, hasks h.1, h.2⟩) (fun _ _ _ => id) fun _ _ => id
        apply hj.bind
        · rintro e _ ⟨hx, h⟩
          apply h.error
          · exact hresumed hx
          · exact fun y hy => hy.of_asks (hasks hx)
        · intro y
          apply Tells.pure
          rintro v _ ⟨hx, hy, hv⟩
          exact ⟨hresumed hx hy, hv⟩

variable {panel : Panel σ}

/-- A rule comes to what an evaluation may come to, when its operands do so if they are asked
for. -/
theorem settles_valueBy (hnamed : ∀ i e, (answers i e).isSome = (panel e).isSome) {P : ν → Prop}
    {i : Nat} {r : Rule} (hr : rules[i]? = some r)
    {ask : BitVec 32 → StateT ν (ExceptT RuleError (StateM (σ × Trace))) Bool}
    (hask : ∀ j, Settles answers rules limit (fun v => Asks rules answers req i j.toNat ∧ P v) P
      (ask j) (Comes rules answers req j.toNat)) :
  Settles answers rules limit P P (valueBy (panel.tracing i) req i r ask)
    (Comes rules answers req i)
  := by
  have hsays := says_clause r
  rw [valueBy]
  generalize r.clause = clause at hsays ⊢
  cases hsays with
  | unknown hop =>
      apply Tells.throw
      intro v t _
      exact .inl ⟨_, Consults.alone hr (not_combines hr (by simp [hop])) (.unknown hr hop)⟩
  | misplaced hop hmix =>
      apply Tells.throw
      intro v t _
      exact .inl ⟨_, Consults.alone hr (not_combines hr (by grind [Operator.isLogic]))
        (.misplaced hr hop hmix)⟩
  | @test c hop hselector =>
      have hx : Comes rules answers req i (compared (answers i) req i r c) :=
        ⟨_, Consults.alone hr (not_combines hr (by simp [hop])) (.compare hr hop hselector)⟩
      apply Tells.test
      intro s v t hv hcalls
      rw [(compared_and_called_eq hnamed hcalls c).1]
      revert hx
      cases compared (answers i) req i r c with
      | error e => exact fun hx => .inl hx
      | ok x => exact fun hx => ⟨hx, hv⟩
  | @combine k hop hselector =>
      exact settles_evalM ⟨r, hr, hop, hselector, rfl, rfl, rfl⟩ hask

/-- A rule that is asked for comes to what an evaluation may come to, when the rules on the stack
lead to it. -/
theorem settles_measureAt (hnamed : ∀ i e, (answers i e).isSome = (panel e).isSome)
    (hin : InRange rules) {budget : Nat} (nesting source i : Nat) {stack : List Nat}
    (hbudget : stack.length + budget = limit + 1) :
  Settles answers rules limit
    (fun marks => LeadsTo rules answers req stack i ∧ Held rules answers req stack marks)
    (Held rules answers req stack)
    (measureAt (.tracer panel) rules req limit budget nesting source i) (Comes rules answers req i)
  := by
  induction budget generalizing nesting source i stack with
  | zero =>
      apply Tells.asked
      apply Tells.throw
      rintro marks t ⟨hleads, -⟩
      have hlength := hleads.length_le
      refine .inr ⟨⟨rfl, by omega⟩, fun hlimit => hleads.not_comes ?_⟩
      apply hleads.mem_of_length
      omega
  | succ budget ih =>
      -- an operand is asked for with the rule on the stack
      have hask : ∀ j : BitVec 32, Settles answers rules limit
          (fun marks => Asks rules answers req i j.toNat ∧
            (LeadsTo rules answers req stack i ∧ i ∉ stack) ∧
              Held rules answers req (i :: stack) marks)
          (fun marks => (LeadsTo rules answers req stack i ∧ i ∉ stack) ∧
            Held rules answers req (i :: stack) marks)
          (measureAt (.tracer panel) rules req limit budget (nesting + 1) i j.toNat)
          (Comes rules answers req j.toNat) := by
        intro j
        have hlength : (i :: stack).length + budget = limit + 1 := by
          rw [List.length_cons]
          omega
        refine ((ih (nesting + 1) i j.toNat hlength).and
          (C := LeadsTo rules answers req stack i ∧ i ∉ stack)).mono ?_ ?_ ?_
        · rintro marks t ⟨hij, ⟨hleads, hnot⟩, hheld⟩
          exact ⟨⟨hleads, hnot⟩, hleads.push hin hnot hij, hheld⟩
        · rintro x marks t ⟨hleads, hx, hheld⟩
          exact ⟨hx, hleads, hheld⟩
        · exact fun _ _ h => h.2
      rw [measureAt]
      apply Tells.asked
      rcases Nat.lt_or_ge i rules.length with hi | hi
      · rw [dif_pos hi]
        apply Tells.get
        intro marks
        cases hmark : marks[i] with
        | done x =>
            apply Tells.pure
            rintro _ t ⟨rfl, -, hheld⟩
            exact ⟨hheld.done i hi x hmark, hheld⟩
        | visiting =>
            apply Tells.throw
            rintro _ t ⟨rfl, hleads, hheld⟩
            exact .inr ⟨trivial, fun _ => hleads.not_comes (hheld.visiting i hi hmark)⟩
        | pending =>
            refine Tells.begun ?_ ((settles_valueBy hnamed (List.getElem?_eq_getElem hi) hask).bind
              (fun _ _ => id) ?_)
            · rintro _ t ⟨rfl, hleads, hheld⟩
              refine ⟨⟨hleads, ?_⟩, hheld.visit hi⟩
              intro hmem
              rw [hheld.held i hi hmem] at hmark
              contradiction
            · intro x
              refine Tells.modify ?_ (Tells.pure fun _ _ => id)
              rintro marks t ⟨hx, ⟨-, hnot⟩, hheld⟩
              exact ⟨hx, hheld.finish hi hnot hx⟩
      · rw [dif_neg (Nat.not_lt.mpr hi)]
        apply Tells.throw
        rintro marks t ⟨hleads, -⟩
        exact absurd hleads.index_lt (Nat.not_lt.mpr hi)

/-- All rules of a list pass by plain recursion, or do not, or are in error. -/
def ComesAll (rules : List Rule) (answers : Nat → Answers) (req : Request) (is : List Nat)
    (x : Except RuleError Bool) : Prop :=
  ∃ cs, ConsultsAll rules answers req is x cs

/-- A list of rules comes to what its first rule comes to, and then the others if that passes. -/
theorem ComesAll.of_cons {i : Nat} {is : List Nat} {y : Except RuleError Bool}
    (h : ComesAll rules answers req (i :: is) y) :
  ∃ x, Comes rules answers req i x ∧ (x = .ok true → ComesAll rules answers req is y)
  := by
  obtain ⟨cs, h⟩ := h
  cases h with
  | stop hi => exact ⟨_, ⟨_, hi⟩, nofun⟩
  | failed hi => exact ⟨_, ⟨_, hi⟩, nofun⟩
  | next hi his => exact ⟨_, ⟨_, hi⟩, fun _ => ⟨_, his⟩⟩

/-- Rules that are asked for in turn, until one does not pass, come to what an evaluation may come
to. -/
theorem settles_allM (hnamed : ∀ i e, (answers i e).isSome = (panel e).isSome)
    (hin : InRange rules) (is : List (Fin rules.length)) :
  Settles answers rules limit (Held rules answers req []) (Held rules answers req [])
    (is.allM fun i : Fin rules.length =>
      measureAt (.tracer panel) rules req limit (limit + 1) 1 i i)
    (ComesAll rules answers req (is.map Fin.val))
  := by
  induction is with
  | nil => exact Tells.pure fun marks _ hheld => ⟨⟨[], ConsultsAll.nil⟩, hheld⟩
  | cons i is ih =>
      have hbudget : ([] : List Nat).length + (limit + 1) = limit + 1 := Nat.zero_add _
      have hi : Settles answers rules limit (Held rules answers req []) (Held rules answers req [])
          (measureAt (.tracer panel) rules req limit (limit + 1) 1 i i)
          (Comes rules answers req i) :=
        (settles_measureAt hnamed hin 1 i i hbudget).mono
          (fun _ _ hheld => ⟨LeadsTo.nil i.isLt, hheld⟩) (fun _ _ _ => id) fun _ _ => id
      apply hi.bind
      · intro e _ h
        apply h.error
        · rintro ⟨cs, hx⟩
          exact ⟨cs, ConsultsAll.failed hx⟩
        · rintro y hy
          obtain ⟨x, hx, _⟩ := hy.of_cons
          exact ⟨x, hx⟩
      · intro x
        cases x with
        | false =>
            apply Tells.pure
            rintro marks _ ⟨⟨cs, hx⟩, hheld⟩
            exact ⟨⟨cs, ConsultsAll.stop hx⟩, hheld⟩
        | true =>
            have hnext : ∀ {y}, Comes rules answers req i (.ok true) →
                ComesAll rules answers req (is.map Fin.val) y →
                ComesAll rules answers req (i.val :: is.map Fin.val) y := by
              rintro y ⟨cs, hx⟩ ⟨ds, hy⟩
              exact ⟨_, ConsultsAll.next hx hy⟩
            apply ih.and.mono (fun _ _ => id)
            · rintro y marks _ ⟨hx, hy, hheld⟩
              exact ⟨hnext hx hy, hheld⟩
            · rintro e _ ⟨hx, h⟩
              apply h.error
              · exact hnext hx
              · intro y hy
                obtain ⟨z, hz, hrest⟩ := hy.of_cons
                exact ⟨y, hrest (hz.unique hx)⟩

/-- An evaluation of a sequence whose operands are in range and whose rules are all reached is cut
off, or comes to what plain recursion comes to. -/
theorem ends_evaluate {is : List (Fin rules.length)} (hroots : roots rules = .ok is) {s : σ}
    (h : panel.Gives answers (trace rules panel req limit s).calls) :
  Ends rules limit (ComesAll rules answers req (topLevel rules))
    ((evaluate rules panel req limit).run.run s).1
  := by
  obtain ⟨hin, _, rfl⟩ := of_roots hroots
  have hsettles : Settles answers rules limit _ _ _
      (ComesAll rules answers req ((graph rules).sources.map Fin.val)) :=
    settles_allM h.named hin (graph rules).sources
  rw [map_sources] at hsettles
  have hend := (hsettles.mono (fun _ _ => id) (fun _ _ _ h => Or.inl h.1) fun _ _ => id).run'
    (W := fun x _ => Ends rules limit (ComesAll rules answers req (topLevel rules)) x)
    (Vector.replicate rules.length .pending) (s, .empty)
  have hrun := (traceAll_run rules panel req limit s).1
  rw [traceAll, measureAll, hroots] at hrun
  dsimp only at hrun
  rw [hrun] at hend
  exact hend h.answered Held.start

end

/-! ### Rejected sequences -/

/-- An evaluation of a rejected sequence fails with the error of the check, without asking any
oracle, unless the sequence is rejected for a cycle. In that case it comes to a value only if plain
recursion over the top-level rules comes to this value, with the answers that the oracles have
given. When the depth allows for all rules, it fails exactly when plain recursion comes to no
value. -/
theorem evaluate_rejected {rules : List Rule} {e : RuleError}
    (hcheck : checkStructure rules = .error e) (panel : Panel σ) (req : Request) (limit : Nat)
    (s : σ) :
  ((∀ i, e ≠ .cycle i) → (evaluate rules panel req limit).run.run s = (.error e, s)) ∧
    (∃ answers, panel.Gives answers (trace rules panel req limit s).calls) ∧
    ∀ i, e = .cycle i → ∀ answers, panel.Gives answers (trace rules panel req limit s).calls →
      (∀ x, ((evaluate rules panel req limit).run.run s).1 = .ok x →
        ∃ cs, ConsultsAll rules answers req (topLevel rules) (.ok x) cs) ∧
      (rules.length ≤ limit + 1 →
        ((∃ e', ((evaluate rules panel req limit).run.run s).1 = .error e') ↔
          ∀ x cs, ¬ ConsultsAll rules answers req (topLevel rules) (.ok x) cs))
  := by
  refine ⟨?_, ?_, ?_⟩
  · intro hne
    rcases roots_of_checkStructure hcheck with ⟨⟨i, rfl⟩, _⟩ | ⟨_, hroots⟩
    · exact absurd rfl (hne i)
    · rw [evaluate, hroots]
      rfl
  · have horderly := trace_isOrderly rules panel req limit s
    exact Panel.exists_gives horderly.made (horderly.once.sublist horderly.inOrder)
  · rintro i rfl answers hgives
    have hroots : roots rules = .ok (graph rules).sources := by
      rcases roots_of_checkStructure hcheck with ⟨_, hroots⟩ | ⟨hne, _⟩
      · exact hroots
      · exact absurd rfl (hne i)
    have hends := ends_evaluate hroots hgives
    generalize ((evaluate rules panel req limit).run.run s).1 = result at hends ⊢
    constructor
    · rintro x rfl
      exact hends.ok
    · intro hlimit
      constructor
      · rintro ⟨e', rfl⟩ x cs hx
        rcases hends with ⟨ds, he⟩ | ⟨_, hnone⟩
        · have hsame := (he.unique hx).1
          contradiction
        · exact hnone hlimit _ ⟨cs, hx⟩
      · intro hnone
        cases result with
        | error e' => exact ⟨e', rfl⟩
        | ok x =>
            obtain ⟨cs, hx⟩ := hends.ok
            exact absurd hx (hnone x cs)

/-! ### An example -/

/-- The first operand settles the top-level rule, and a cycle lies behind the second one. -/
def hiddenCycle : List Rule :=
  [.or 1 2, .always, .not 3, .not 2]

/-- No oracles are registered. -/
def noOracles : Panel Unit :=
  fun _ => none

/-- A request without arguments. -/
def emptyRequest : Request :=
  ⟨⟨⟨10⟩, ⟨.createPermissions, ⟨20⟩⟩, []⟩, ⟨0, 0⟩⟩

/-- A sequence with a cycle is rejected, and yet it passes. -/
theorem hiddenCycle_passes :
  checkStructure hiddenCycle = .error (.cycle 2) ∧
    ((evaluate hiddenCycle noOracles emptyRequest 64).run.run ()).1 = .ok true ∧
    ¬ ∀ (rules : List Rule) (panel : Panel Unit) (req : Request) (limit : Nat) (e : RuleError),
      checkStructure rules = .error e →
        ∃ e', ((evaluate rules panel req limit).run.run ()).1 = .error e'
  := by
  have hcheck : checkStructure hiddenCycle = .error (.cycle 2) := by decide +kernel
  have hpasses : ((evaluate hiddenCycle noOracles emptyRequest 64).run.run ()).1 = .ok true := by
    decide +kernel
  refine ⟨hcheck, hpasses, ?_⟩
  intro hclaim
  obtain ⟨e', he⟩ := hclaim hiddenCycle noOracles emptyRequest 64 _ hcheck
  exact nomatch hpasses.symm.trans he

/-- Plain recursion comes to the value of the sequence without meeting its cycle. -/
theorem evaluate_rejected_hiddenCycle :
  checkStructure hiddenCycle = .error (.cycle 2) ∧
    ∃ answers cs,
      noOracles.Gives answers (trace hiddenCycle noOracles emptyRequest 64 ()).calls ∧
        ConsultsAll hiddenCycle answers emptyRequest (topLevel hiddenCycle) (.ok true) cs
  := by
  have hcheck : checkStructure hiddenCycle = .error (.cycle 2) := by decide +kernel
  have hpasses : ((evaluate hiddenCycle noOracles emptyRequest 64).run.run ()).1 = .ok true := by
    decide +kernel
  obtain ⟨_, ⟨answers, hgives⟩, hcycle⟩ :=
    evaluate_rejected hcheck noOracles emptyRequest 64 ()
  obtain ⟨cs, hx⟩ := (hcycle 2 rfl answers hgives).1 true hpasses
  exact ⟨hcheck, answers, cs, hgives, hx⟩

end Rule

end DelegatedAccess
