import DelegatedAccess.Decision
import DelegatedAccess.Proofs.Rule.Instrument
import DelegatedAccess.Proofs.Rule.Reference

/-!
# Decisions depend only on what oracles answer

Two computations on possibly different states are alike, under a relation between the
states, when from related states they give the same result and end in related states.
Evaluations of one sequence are alike when the tests that its rules make come out alike, as they do
for one request when the oracles consulted are alike, and with instruments when these display what
is alike. So are decisions by the same gates.

With a relation between states of one computation it follows how far an evaluation can move
the state: no further than the oracles do.
-/

namespace DelegatedAccess

variable {σ τ α β ε ν ι : Type}

/-! ### Computations on a state -/

/-- From related states two computations give the same result and end in related states. -/
def Alike (R : σ → τ → Prop) (m : StateM σ α) (m' : StateM τ α) : Prop :=
  ∀ s t, R s t → (m.run s).1 = (m'.run t).1 ∧ R (m.run s).2 (m'.run t).2

namespace Alike

variable {R : σ → τ → Prop}

/-- Results are alike when they are equal. -/
theorem pure (a : α) :
  Alike R (Pure.pure a) (Pure.pure a)
  := fun _ _ h => ⟨rfl, h⟩

/-- Computations are alike when their parts are. -/
theorem bind {m : StateM σ α} {m' : StateM τ α} {f : α → StateM σ β} {f' : α → StateM τ β}
    (hm : Alike R m m') (hf : ∀ a, Alike R (f a) (f' a)) :
  Alike R (m >>= f) (m' >>= f')
  := by
  intro s t h
  obtain ⟨hresult, hstate⟩ := hm s t h
  have hrest := hf (m.run s).1 _ _ hstate
  rw [StateT.run_bind, StateT.run_bind]
  change ((f (m.run s).1).run (m.run s).2).1 = ((f' (m'.run t).1).run (m'.run t).2).1 ∧
    R ((f (m.run s).1).run (m.run s).2).2 ((f' (m'.run t).1).run (m'.run t).2).2
  rw [← hresult]
  exact hrest

end Alike

/-! ### Computations that may fail -/

/-- Computations that may fail are alike when they fail alike. -/
def AlikeExcept (R : σ → τ → Prop) (m : ExceptT ε (StateM σ) α) (m' : ExceptT ε (StateM τ) α) :
    Prop :=
  Alike R m.run m'.run

namespace AlikeExcept

variable {R : σ → τ → Prop}

/-- Results are alike when they are equal. -/
theorem pure (a : α) :
  AlikeExcept R (Pure.pure a : ExceptT ε (StateM σ) α) (Pure.pure a : ExceptT ε (StateM τ) α)
  := Alike.pure (Except.ok a)

/-- Failures are alike when they are equal. -/
theorem throw (e : ε) :
  AlikeExcept R (MonadExcept.throw e : ExceptT ε (StateM σ) α)
    (MonadExcept.throw e : ExceptT ε (StateM τ) α)
  := Alike.pure (Except.error e)

/-- Computations are alike when their parts are. -/
theorem bind {m : ExceptT ε (StateM σ) α} {m' : ExceptT ε (StateM τ) α}
    {f : α → ExceptT ε (StateM σ) β} {f' : α → ExceptT ε (StateM τ) β}
    (hm : AlikeExcept R m m') (hf : ∀ a, AlikeExcept R (f a) (f' a)) :
  AlikeExcept R (m >>= f) (m' >>= f')
  := by
  change Alike R (m.run >>= ExceptT.bindCont f) (m'.run >>= ExceptT.bindCont f')
  apply Alike.bind hm
  intro x
  cases x with
  | error e => apply Alike.pure
  | ok a => apply hf

/-- A computation that does not fail stays alike. -/
theorem lift {m : StateM σ α} {m' : StateM τ α} (hm : Alike R m m') :
  AlikeExcept R (liftM m : ExceptT ε (StateM σ) α) (liftM m' : ExceptT ε (StateM τ) α)
  := by
  change Alike R (do return Except.ok (← m)) (do return Except.ok (← m'))
  apply Alike.bind hm
  intro a
  apply Alike.pure

end AlikeExcept

/-! ### Computations that keep notes besides -/

/-- Computations with a state of their own are alike when they are so from each such state. -/
def AlikeState (R : σ → τ → Prop) (m : StateT ν (ExceptT ε (StateM σ)) α)
    (m' : StateT ν (ExceptT ε (StateM τ)) α) : Prop :=
  ∀ v, AlikeExcept R (m.run v) (m'.run v)

namespace AlikeState

variable {R : σ → τ → Prop}

/-- Results are alike when they are equal. -/
theorem pure (a : α) :
  AlikeState R (Pure.pure a : StateT ν (ExceptT ε (StateM σ)) α)
    (Pure.pure a : StateT ν (ExceptT ε (StateM τ)) α)
  := fun v => AlikeExcept.pure (a, v)

/-- Failures are alike when they are equal. -/
theorem throw (e : ε) :
  AlikeState R (MonadExcept.throw e : StateT ν (ExceptT ε (StateM σ)) α)
    (MonadExcept.throw e : StateT ν (ExceptT ε (StateM τ)) α)
  := by
  intro v
  apply AlikeExcept.bind (AlikeExcept.throw e) (f := fun a => Pure.pure (a, v))
  intro a
  apply AlikeExcept.pure

/-- Computations are alike when their parts are. -/
theorem bind {m : StateT ν (ExceptT ε (StateM σ)) α} {m' : StateT ν (ExceptT ε (StateM τ)) α}
    {f : α → StateT ν (ExceptT ε (StateM σ)) β} {f' : α → StateT ν (ExceptT ε (StateM τ)) β}
    (hm : AlikeState R m m') (hf : ∀ a, AlikeState R (f a) (f' a)) :
  AlikeState R (m >>= f) (m' >>= f')
  := by
  intro v
  apply AlikeExcept.bind (hm v)
  intro a
  apply hf

/-- Reading the own state is alike. -/
theorem get :
  AlikeState R (MonadState.get : StateT ν (ExceptT ε (StateM σ)) ν)
    (MonadState.get : StateT ν (ExceptT ε (StateM τ)) ν)
  := fun v => AlikeExcept.pure (v, v)

/-- Changing the own state is alike. -/
theorem modify (f : ν → ν) :
  AlikeState R (modify f : StateT ν (ExceptT ε (StateM σ)) PUnit)
    (modify f : StateT ν (ExceptT ε (StateM τ)) PUnit)
  := fun v => AlikeExcept.pure ((), f v)

/-- A computation without a state of its own stays alike. -/
theorem lift {m : ExceptT ε (StateM σ) α} {m' : ExceptT ε (StateM τ) α}
    (hm : AlikeExcept R m m') :
  AlikeState R (StateT.lift m : StateT ν (ExceptT ε (StateM σ)) α)
    (StateT.lift m' : StateT ν (ExceptT ε (StateM τ)) α)
  := by
  intro v
  apply AlikeExcept.bind hm
  intro a
  apply AlikeExcept.pure

/-- Formulas and lists of computations are alike when their parts are. -/
theorem isCongruence :
  IsCongruence (AlikeState R : StateT ν (ExceptT ε (StateM σ)) Bool →
    StateT ν (ExceptT ε (StateM τ)) Bool → Prop)
  where
  pure := AlikeState.pure
  bind := AlikeState.bind

/-- In the end the own state can be dropped. -/
theorem run' {m : StateT ν (ExceptT ε (StateM σ)) α} {m' : StateT ν (ExceptT ε (StateM τ)) α}
    (hm : AlikeState R m m') (v : ν) :
  AlikeExcept R (m.run' v) (m'.run' v)
  := by
  apply AlikeExcept.bind (hm v)
  intro a
  apply AlikeExcept.pure

end AlikeState

/-! ### Evaluations -/

/-- Panels are alike when they name alike oracles by the same entities. -/
def Panel.Alike (R : σ → τ → Prop) (panel : Panel σ) (panel' : Panel τ) : Prop :=
  ∀ e, Option.Rel (fun o o' => ∀ q, DelegatedAccess.Alike R (o q) (o' q)) (panel e) (panel' e)

namespace Panel.Alike

variable {R : σ → τ → Prop} {panel : Panel σ} {panel' : Panel τ}

/-- Alike panels name alike oracles by the same values. -/
theorem named? (h : panel.Alike R panel') (v : Value) :
  Option.Rel (fun o o' => ∀ q, DelegatedAccess.Alike R (o q) (o' q)) (panel.named? v)
    (panel'.named? v)
  := by
  rw [Panel.named?, Panel.named?]
  cases Entity.ofNat? v.toNat with
  | none => apply Option.Rel.none
  | some e => apply h

/-- Alike panels let the same values be selected. -/
theorem select (h : panel.Alike R panel') (req : Request) (i : Nat) (r : Rule)
    (source : Source) :
  AlikeExcept R (Rule.select panel req i r source) (Rule.select panel' req i r source)
  := by
  cases source with
  | argument k =>
      rw [Rule.select, Rule.select]
      cases req.question.args[k.toNat]? with
      | none => apply AlikeExcept.throw
      | some v => apply AlikeExcept.pure
  | height => apply AlikeExcept.pure
  | timestamp => apply AlikeExcept.pure
  | oracle =>
      rw [Rule.select, Rule.select]
      have hnamed := h.named? r.value
      generalize panel.named? r.value = x at hnamed ⊢
      generalize panel'.named? r.value = y at hnamed ⊢
      cases hnamed with
      | none => apply AlikeExcept.throw
      | some ho =>
          apply AlikeExcept.bind (AlikeExcept.lift (ho req.question))
          intro yes
          apply AlikeExcept.pure
  | ownValue => apply AlikeExcept.pure
  | reserved s => apply AlikeExcept.throw

/-- A test comes out alike with alike panels. -/
theorem test (h : panel.Alike R panel') (req : Request) (i : Nat) (r : Rule) (source : Source)
    (c : Comparison) :
  AlikeExcept R (Rule.test panel req i r source c) (Rule.test panel' req i r source c)
  := by
  apply AlikeExcept.bind (h.select req i r source)
  intro x
  apply AlikeExcept.pure

end Panel.Alike

namespace Rule

/-- With two panels and for two requests, the tests that the rules of a sequence make come out
alike. -/
def TestsAlike (R : σ → τ → Prop) (rules : List Rule) (panel : Panel σ) (req : Request)
    (panel' : Panel τ) (req' : Request) : Prop :=
  ∀ r ∈ rules, ∀ source c, r.clause = .ok (.test source c) → ∀ i,
    AlikeExcept R (test panel req i r source c) (test panel' req' i r source c)

namespace TestsAlike

variable {R : σ → τ → Prop} {rules : List Rule} {panel : Panel σ} {panel' : Panel τ}
    {req req' : Request}

/-- The value of a rule is found alike when its operands are asked for alike. -/
theorem valueBy (h : TestsAlike R rules panel req panel' req') (index : Nat) {r : Rule}
    (hr : r ∈ rules) {ask : BitVec 32 → StateT ν (ExceptT RuleError (StateM σ)) Bool}
    {ask' : BitVec 32 → StateT ν (ExceptT RuleError (StateM τ)) Bool}
    (hask : ∀ j, AlikeState R (ask j) (ask' j)) :
  AlikeState R (Rule.valueBy panel req index r ask) (Rule.valueBy panel' req' index r ask')
  := by
  rw [Rule.valueBy, Rule.valueBy]
  cases hclause : r.clause with
  | error defect => cases defect <;> apply AlikeState.throw
  | ok clause =>
      cases clause with
      | test source c => apply AlikeState.lift (h r hr source c hclause index)
      | combine f => apply AlikeState.isCongruence.evalM f ask ask' fun j _ => hask j

end TestsAlike

/-- Instruments are alike, for a sequence and two requests, when they display what is alike, and the
tests that the rules make come out alike. -/
structure Instrument.Alike (R : σ → τ → Prop) (rules : List Rule) (ins : Instrument σ)
    (req : Request) (ins' : Instrument τ) (req' : Request) : Prop where
  asked : ∀ nesting s t, R s t → R (ins.asked nesting s) (ins'.asked nesting t)
  begun : ∀ index s t, R s t → R (ins.begun index s) (ins'.begun index t)
  tests : ∀ index, TestsAlike R rules (ins.panel index) req (ins'.panel index) req'

namespace Instrument.Alike

variable {R : σ → τ → Prop} {rules : List Rule} {ins : Instrument σ} {ins' : Instrument τ}
    {req req' : Request}

/-- Instruments that display nothing are alike when the tests come out alike. -/
theorem blank {panel : Panel σ} {panel' : Panel τ}
    (h : TestsAlike R rules panel req panel' req') :
  Instrument.Alike R rules (.blank panel) req (.blank panel') req'
  where
  asked _ _ _ := id
  begun _ _ _ := id
  tests _ := h

/-- Computations stay alike when what is alike is displayed before. -/
theorem display {m : StateT ν (ExceptT ε (StateM σ)) α} {m' : StateT ν (ExceptT ε (StateM τ)) α}
    {f : σ → σ} {g : τ → τ} (hfg : ∀ s t, R s t → R (f s) (g t)) (h : AlikeState R m m') :
  AlikeState R (Rule.display f >>= fun _ => m) (Rule.display g >>= fun _ => m')
  := fun v s t hst => h v (f s) (g t) (hfg s t hst)

/-- A rule is evaluated alike under alike instruments. -/
theorem measureAt (h : Instrument.Alike R rules ins req ins' req')
    (limit budget nesting source index : Nat) :
  AlikeState R (Rule.measureAt ins rules req limit budget nesting source index)
    (Rule.measureAt ins' rules req' limit budget nesting source index)
  := by
  induction budget generalizing nesting source index with
  | zero => apply display (h.asked nesting) (AlikeState.throw _)
  | succ budget ih =>
      rw [Rule.measureAt, Rule.measureAt]
      apply display (h.asked nesting)
      split
      next hindex =>
        apply AlikeState.bind AlikeState.get
        intro marks
        cases marks[index] with
        | done value => apply AlikeState.pure
        | visiting => apply AlikeState.throw
        | pending =>
            apply AlikeState.bind (AlikeState.modify _)
            intro _
            apply display (h.begun index)
            apply AlikeState.bind ((h.tests index).valueBy index (List.getElem_mem hindex)
              fun j => ih (nesting + 1) index j.toNat)
            intro value
            apply AlikeState.bind (AlikeState.modify _)
            intro _
            apply AlikeState.pure
      next => apply AlikeState.throw

/-- A sequence is evaluated alike under alike instruments. -/
theorem measureAll (h : Instrument.Alike R rules ins req ins' req') (limit : Nat) :
  AlikeExcept R (Rule.measureAll ins rules req limit) (Rule.measureAll ins' rules req' limit)
  := by
  rw [Rule.measureAll, Rule.measureAll]
  cases Rule.roots rules with
  | error e => apply AlikeExcept.throw
  | ok roots =>
      apply AlikeState.run'
      apply AlikeState.isCongruence.allM
      intro i _
      apply h.measureAt

end Instrument.Alike

/-- A sequence is evaluated alike when the tests come out alike. -/
theorem TestsAlike.evaluate {R : σ → τ → Prop} {rules : List Rule} {panel : Panel σ}
    {req : Request} {panel' : Panel τ} {req' : Request}
    (h : TestsAlike R rules panel req panel' req') (limit : Nat) :
  AlikeExcept R (Rule.evaluate rules panel req limit) (Rule.evaluate rules panel' req' limit)
  := by
  rw [← measureAll_blank, ← measureAll_blank]
  exact (Instrument.Alike.blank h).measureAll limit

end Rule

namespace Panel.Alike

variable {R : σ → τ → Prop} {panel : Panel σ} {panel' : Panel τ}

/-- The tests that rules make come out alike with alike panels. -/
theorem testsAlike (h : panel.Alike R panel') (rules : List Rule) (req : Request) :
  Rule.TestsAlike R rules panel req panel' req
  := fun r _ source c _ i => h.test req i r source c

/-- A sequence is evaluated alike with alike panels. -/
theorem evaluate (h : panel.Alike R panel') (rules : List Rule) (req : Request) (limit : Nat) :
  AlikeExcept R (Rule.evaluate rules panel req limit) (Rule.evaluate rules panel' req limit)
  := (h.testsAlike rules req).evaluate limit

/-- Gates decide alike with alike panels. -/
theorem byGates (h : panel.Alike R panel') (req : Request) (limit : Nat) (gates : List Gate) :
  DelegatedAccess.Alike R (Decision.byGates panel req limit gates)
    (Decision.byGates panel' req limit gates)
  := by
  induction gates with
  | nil => apply Alike.pure
  | cons gate gates ih =>
      rw [Decision.byGates, Decision.byGates]
      apply Alike.bind
      · cases gate with
        | error e => apply AlikeExcept.throw
        | ok rules => apply h.evaluate
      · intro x
        match x with
        | .ok true => apply Alike.pure
        | .ok false => exact ih
        | .error e =>
            apply Alike.bind ih
            intro decision
            cases decision <;> apply Alike.pure

end Panel.Alike

/-- Panels that give the same answers are alike, whatever their oracles do to the states. -/
theorem Panel.AnswersAs.alike {panel : Panel σ} {panel' : Panel τ} {answers : Answers}
    (h : panel.AnswersAs answers) (h' : panel'.AnswersAs answers) :
  panel.Alike (fun _ _ => True) panel'
  := by
  intro e
  have hrel := h e
  have hrel' := h' e
  generalize panel e = o at hrel ⊢
  generalize panel' e = o' at hrel' ⊢
  generalize answers e = f at hrel hrel'
  cases f with
  | none =>
      cases hrel
      cases hrel'
      apply Option.Rel.none
  | some f =>
      cases hrel with
      | some hanswer =>
          cases hrel' with
          | some hanswer' =>
              apply Option.Rel.some
              intro q s t _
              exact ⟨(hanswer q s).trans (hanswer' q t).symm, trivial⟩

/-! ### How far a decision moves the state -/

/-- A panel moves states within a relation when its oracles do. -/
def Panel.MovesWithin (R : σ → σ → Prop) (panel : Panel σ) : Prop :=
  ∀ e o, panel e = some o → ∀ q s, R s ((o q).run s).2

/-- A decision moves the state within any reflexive and transitive relation within which the
oracles do. -/
theorem Panel.MovesWithin.byGates {R : σ → σ → Prop} {panel : Panel σ}
    (h : panel.MovesWithin R) (hrefl : ∀ s, R s s) (htrans : ∀ s t u, R s t → R t u → R s u)
    (req : Request) (limit : Nat) (gates : List Gate) (s : σ) :
  R s ((Decision.byGates panel req limit gates).run s).2
  := by
  -- equal states, reached from `s` within the relation
  have halike : panel.Alike (fun t u => t = u ∧ R s t) panel := by
    intro e
    cases he : panel e with
    | none => apply Option.Rel.none
    | some o =>
        apply Option.Rel.some
        rintro q t _ ⟨rfl, ht⟩
        exact ⟨rfl, rfl, htrans _ _ _ ht (h e o he q t)⟩
  obtain ⟨_, _, hmoved⟩ := halike.byGates req limit gates s s ⟨rfl, hrefl s⟩
  exact hmoved

end DelegatedAccess
