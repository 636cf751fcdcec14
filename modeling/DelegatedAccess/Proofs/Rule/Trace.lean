import DelegatedAccess.Proofs.Rule.Alike

/-!
# Traces of evaluations

An evaluation can leave a trace: which rules were begun, in order, and which oracles were asked, for
which rule, what, and with what answer. Nothing else about the evaluation is different. An oracle is
named by an entity, and several rules may name the same one, so that the trace tells more than the
host can see, which is the calls without the rules that make them.

The main results of this module are that an evaluation with a trace is that evaluation, with the
calls that it makes, and rules by which a property of traces is carried through an evaluation.
-/

namespace DelegatedAccess

variable {σ ν α β ε : Type}

/-- A call of an oracle. -/
structure OracleCall where
  /-- The index of the rule that makes the call. -/
  rule : Nat
  /-- The entity that names the oracle. -/
  oracle : Entity
  question : Question
  answer : Bool
deriving DecidableEq, Repr

/-- What the host sees of a call, before it answers. -/
def OracleCall.seen (c : OracleCall) : Entity × Question :=
  (c.oracle, c.question)

/-- What happened in an evaluation. -/
structure Trace where
  /-- The indices of the rules that were begun. -/
  begun : List Nat
  /-- The calls that were made. -/
  calls : List OracleCall
deriving DecidableEq, Repr

namespace Trace

/-- Nothing has happened. -/
def empty : Trace :=
  ⟨[], []⟩

/-- A rule is begun. -/
def enter (t : Trace) (i : Nat) : Trace :=
  { t with begun := t.begun ++ [i] }

/-- Calls are made. -/
def tell (t : Trace) (calls : List OracleCall) : Trace :=
  { t with calls := t.calls ++ calls }

/-- The indices of the rules that have made calls, in the order of the calls. -/
def asked (t : Trace) : List Nat :=
  t.calls.map OracleCall.rule

end Trace

/-! ### Panels that note calls -/

namespace Panel

/-- The oracles, each call of which is noted in the trace as one of the rule at an index. -/
def tracing (panel : Panel σ) (i : Nat) : Panel (σ × Trace) :=
  fun e => (panel e).map fun o q u =>
    let (yes, s) := (o q).run u.1
    (yes, (s, u.2.tell [⟨i, e, q, yes⟩]))

/-- The oracles, each call of which is noted as the host sees it. -/
def recording (panel : Panel σ) : Panel (σ × List (Entity × Question)) :=
  fun e => (panel e).map fun o q u =>
    let (yes, s) := (o q).run u.1
    (yes, (s, u.2 ++ [(e, q)]))

/-- Calls are recorded without any other difference. -/
theorem alike_recording (panel : Panel σ) :
  panel.recording.Alike (fun u s => u.1 = s) panel
  := by
  intro e
  rw [recording]
  cases panel e with
  | none => apply Option.Rel.none
  | some o =>
      apply Option.Rel.some
      rintro q u _ rfl
      exact ⟨rfl, rfl⟩

/-- The host sees the calls that are noted in the trace. -/
theorem alike_tracing (panel : Panel σ) (i : Nat) :
  (panel.tracing i).Alike (fun u v => (u.1, u.2.calls.map OracleCall.seen) = v) panel.recording
  := by
  intro e
  rw [tracing, recording]
  cases panel e with
  | none => apply Option.Rel.none
  | some o =>
      apply Option.Rel.some
      rintro q u _ rfl
      refine ⟨rfl, ?_⟩
      change (((o q).run u.1).2, (u.2.calls ++ [_]).map OracleCall.seen) = _
      rw [List.map_append]
      rfl

end Panel

/-! ### Evaluations with a trace -/

namespace Rule

/-- The instrument that displays the trace. -/
def Instrument.tracer (panel : Panel σ) : Instrument (σ × Trace) where
  asked _ := id
  begun index u := (u.1, u.2.enter index)
  panel index := panel.tracing index

/-- Whether a sequence passes for a request, with a trace of how this is found. -/
def traceAll (rules : List Rule) (panel : Panel σ) (req : Request) (limit : Nat) :
    ExceptT RuleError (StateM (σ × Trace)) Bool :=
  measureAll (.tracer panel) rules req limit

/-- The trace of an evaluation. -/
def trace (rules : List Rule) (panel : Panel σ) (req : Request) (limit : Nat) (s : σ) : Trace :=
  ((traceAll rules panel req limit).run.run (s, .empty)).2.2

section

variable (rules : List Rule) (panel : Panel σ) (req : Request) (limit : Nat)

/-- The trace displays the calls that are recorded without it. -/
theorem alike_tracer :
  Instrument.Alike (fun u v => (u.1, u.2.calls.map OracleCall.seen) = v) rules (.tracer panel) req
    (.blank panel.recording) req
  where
  asked _ _ _ := id
  begun _ _ _ := id
  tests index := (panel.alike_tracing index).testsAlike rules req

/-- A sequence is evaluated with the same calls, whether there is a trace or not. -/
theorem alike_traceAll :
  AlikeExcept (fun u v => (u.1, u.2.calls.map OracleCall.seen) = v) (traceAll rules panel req limit)
    (evaluate rules panel.recording req limit)
  := by
  rw [← measureAll_blank]
  exact (alike_tracer rules panel req).measureAll limit

/-- An evaluation with a trace comes to what the evaluation comes to, and the calls in the trace are
those that the evaluation makes. -/
theorem traceAll_run (s : σ) :
  (traceAll rules panel req limit).run.run (s, .empty) =
      (((evaluate rules panel req limit).run.run s).1,
        (((evaluate rules panel req limit).run.run s).2, trace rules panel req limit s)) ∧
    (evaluate rules panel.recording req limit).run.run (s, []) =
      (((evaluate rules panel req limit).run.run s).1,
        (((evaluate rules panel req limit).run.run s).2,
          (trace rules panel req limit s).calls.map OracleCall.seen))
  := by
  obtain ⟨hresult, hstate⟩ := panel.alike_recording.evaluate rules req limit (s, []) s rfl
  obtain ⟨htraced, hcalls⟩ := alike_traceAll rules panel req limit (s, .empty) (s, []) rfl
  have hrun : ((traceAll rules panel req limit).run.run (s, .empty)).2.1 =
      ((evaluate rules panel req limit).run.run s).2 := by
    rw [← hstate, ← hcalls]
  constructor
  · exact Prod.ext (htraced.trans hresult) (Prod.ext hrun rfl)
  · exact Prod.ext hresult (hcalls.symm.trans (Prod.ext hrun rfl))

end

end Rule

/-! ### What traces tell -/

/-- What is true after a computation with notes and a trace, if it came to a result and if it
failed. -/
def After (Q : α → ν → Trace → Prop) (E : ε → Trace → Prop) :
    Except ε (α × ν) → Trace → Prop
  | .ok (a, v), t => Q a v t
  | .error e, t => E e t

/-- A computation with notes and a trace only adds calls to the trace. When it begins with one
property of both and all calls are of some kind in the end, it ends with another property, or in an
error and with a property of the trace. -/
def Tells (F : OracleCall → Prop) (P : ν → Trace → Prop)
    (m : StateT ν (ExceptT ε (StateM (σ × Trace))) α) (Q : α → ν → Trace → Prop)
    (E : ε → Trace → Prop) : Prop :=
  ∀ v u, u.2.calls <+: ((m.run v).run.run u).2.2.calls ∧
    ((∀ c ∈ ((m.run v).run.run u).2.2.calls, F c) → P v u.2 →
      After Q E ((m.run v).run.run u).1 ((m.run v).run.run u).2.2)

namespace Tells

variable {F : OracleCall → Prop} {P P' : ν → Trace → Prop} {Q : α → ν → Trace → Prop}
  {E : ε → Trace → Prop}

/-- A result leaves notes and trace. -/
theorem pure {a : α} (h : ∀ v t, P v t → Q a v t) :
  Tells F P (Pure.pure a : StateT ν (ExceptT ε (StateM (σ × Trace))) α) Q E
  := fun v u => ⟨List.prefix_refl _, fun _ => h v u.2⟩

/-- A failure leaves the trace. -/
theorem throw {e : ε} (h : ∀ v t, P v t → E e t) :
  Tells F P (MonadExcept.throw e : StateT ν (ExceptT ε (StateM (σ × Trace))) α) Q E
  := fun v u => ⟨List.prefix_refl _, fun _ => h v u.2⟩

/-- What comes after a computation goes on from what the computation ends with. -/
theorem bind {m : StateT ν (ExceptT ε (StateM (σ × Trace))) α}
    {f : α → StateT ν (ExceptT ε (StateM (σ × Trace))) β} {Q' : β → ν → Trace → Prop}
    {E' : ε → Trace → Prop} (hm : Tells F P m Q E) (herror : ∀ e t, E e t → E' e t)
    (hf : ∀ a, Tells F (Q a) (f a) Q' E') :
  Tells F P (m >>= f) Q' E'
  := by
  intro v u
  obtain ⟨hgrows, htold⟩ := hm v u
  rw [bind_run]
  revert hgrows htold
  generalize (m.run v).run.run u = x
  obtain ⟨x, w⟩ := x
  cases x with
  | error e => exact fun hgrows htold => ⟨hgrows, fun hF hP => herror e w.2 (htold hF hP)⟩
  | ok y =>
      intro hgrows htold
      obtain ⟨hmore, hrest⟩ := hf y.1 y.2 w
      refine ⟨hgrows.trans hmore, fun hF hP => hrest hF (htold ?_ hP)⟩
      -- the calls so far are among those in the end
      exact fun c hc => hF c (hmore.subset hc)

/-- The notes can be read. -/
theorem get {f : ν → StateT ν (ExceptT ε (StateM (σ × Trace))) α}
    (h : ∀ v, Tells F (fun w t => w = v ∧ P v t) (f v) Q E) :
  Tells F P (MonadState.get >>= f) Q E
  := fun v u => ⟨(h v v u).1, fun hF hP => (h v v u).2 hF ⟨rfl, hP⟩⟩

/-- A rule can be asked for. -/
theorem asked {panel : Panel σ} {nesting : Nat}
    {m : StateT ν (ExceptT ε (StateM (σ × Trace))) α} (h : Tells F P m Q E) :
  Tells F P (Rule.display ((Rule.Instrument.tracer panel).asked nesting) >>= fun _ => m) Q E
  := h

/-- A rule can be begun, which is marked before. -/
theorem begun {n i : Nat} {hi : i < n} {panel : Panel σ} {P P' : Vector Rule.Mark n → Trace → Prop}
    {Q : α → Vector Rule.Mark n → Trace → Prop} {E : RuleError → Trace → Prop}
    {m : StateT (Vector Rule.Mark n) (ExceptT RuleError (StateM (σ × Trace))) α}
    (hmarks : ∀ v t, P v t → P' (v.set i .visiting) (t.enter i)) (h : Tells F P' m Q E) :
  Tells F P (do
    modify (·.set i .visiting)
    Rule.display ((Rule.Instrument.tracer panel).begun i)
    m) Q E
  := fun v u => ⟨(h (v.set i .visiting) (u.1, u.2.enter i)).1,
    fun hF hP => (h (v.set i .visiting) (u.1, u.2.enter i)).2 hF (hmarks v u.2 hP)⟩

/-- The notes can be changed. -/
theorem modify {g : ν → ν} {m : StateT ν (ExceptT ε (StateM (σ × Trace))) α}
    (hnotes : ∀ v t, P v t → P' (g v) t) (h : Tells F P' m Q E) :
  Tells F P (modify g >>= fun _ => m) Q E
  := fun v u => ⟨(h (g v) u).1, fun hF hP => (h (g v) u).2 hF (hnotes v u.2 hP)⟩

/-- Less may be known before a computation, and more after it. -/
theorem mono {m : StateT ν (ExceptT ε (StateM (σ × Trace))) α} {Q' : α → ν → Trace → Prop}
    {E' : ε → Trace → Prop} (hm : Tells F P m Q E) (hbefore : ∀ v t, P' v t → P v t)
    (hafter : ∀ a v t, Q a v t → Q' a v t) (herror : ∀ e t, E e t → E' e t) :
  Tells F P' m Q' E'
  := by
  intro v u
  obtain ⟨hgrows, htold⟩ := hm v u
  refine ⟨hgrows, fun hF hP => ?_⟩
  have hend := htold hF (hbefore v u.2 hP)
  revert hend
  cases ((m.run v).run.run u).1 with
  | error e => apply herror
  | ok y => apply hafter

/-- What is known of something that is not given stays known of it. -/
theorem exists_and {ι : Type} [Nonempty ι] {C : ι → Prop}
    {m : StateT ν (ExceptT ε (StateM (σ × Trace))) α} {P : ι → ν → Trace → Prop}
    {Q : ι → α → ν → Trace → Prop} {E : ι → ε → Trace → Prop}
    (h : ∀ x, Tells F (P x) m (Q x) (E x)) :
  Tells F (fun v t => ∃ x, C x ∧ P x v t) m (fun a v t => ∃ x, C x ∧ Q x a v t)
    fun e t => ∃ x, C x ∧ E x e t
  := by
  intro v u
  obtain ⟨x₀⟩ := ‹Nonempty ι›
  refine ⟨(h x₀ v u).1, ?_⟩
  rintro hF ⟨x, hx, hP⟩
  have hend := (h x v u).2 hF hP
  revert hend
  cases ((m.run v).run.run u).1 with
  | error e => exact fun hend => ⟨x, hx, hend⟩
  | ok y => exact fun hend => ⟨x, hx, hend⟩

/-- Dropping the notes leaves the trace. -/
theorem run' {m : StateT ν (ExceptT ε (StateM (σ × Trace))) α} {W : Except ε α → Trace → Prop}
    (hm : Tells F P m (fun a _ => W (.ok a)) fun e => W (.error e)) (v : ν) (u : σ × Trace)
    (hF : ∀ c ∈ ((m.run' v).run.run u).2.2.calls, F c) (hP : P v u.2) :
  W ((m.run' v).run.run u).1 ((m.run' v).run.run u).2.2
  := by
  obtain ⟨_, htold⟩ := hm v u
  rw [run'_run] at hF ⊢
  have hend := htold hF hP
  revert hend
  cases ((m.run v).run.run u).1 with
  | error e => exact id
  | ok y => exact id

end Tells

end DelegatedAccess
