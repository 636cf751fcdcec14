import DelegatedAccess.Proofs.Run

/-!
# Hosts

What is done with an instance comes to the same on different hosts whose oracles answer and act
on the instance alike. In particular a host may keep notes besides its state: what is done comes
to the same as without the notes.

The main result of this module is that acts are alike when the oracles are.
-/

namespace DelegatedAccess.World

variable {η ω ω' ι : Type}

/-! ### Acts on different hosts -/

/-- The oracles of two hosts are alike under a relation between their worlds. -/
def Behaviour.Alike (R : World η ω → World η ω' → Prop) (behave : Behaviour η ω)
    (behave' : Behaviour η ω') : Prop :=
  ∀ handle q, DelegatedAccess.Alike R (behave handle q) (behave' handle q)

/-- A relation between worlds on different hosts is one of the hosts alone: related worlds have
the same instance, and stay related with any other instance in its place. -/
structure SameInstance (R : World η ω → World η ω' → Prop) : Prop where
  current : ∀ {w w'}, R w w' → w.current = w'.current
  replace : ∀ {w w'}, R w w' → ∀ i, R { w with current := i } { w' with current := i }

section

variable {R : World η ω → World η ω' → Prop} {behave : Behaviour η ω}
  {behave' : Behaviour η ω'}

/-- Alike oracles make alike panels. -/
theorem Behaviour.Alike.panel (h : behave.Alike R behave') (i : Instance η) :
  (panel behave i).Alike R (panel behave' i)
  := by
  intro e
  rw [World.panel, World.panel]
  cases i.oracle? e with
  | none => apply Option.Rel.none
  | some handle => apply Option.Rel.some (h handle)

/-- A request is decided the same for the same instance, and leaves related worlds. -/
theorem alike_decide (h : behave.Alike R behave') (req : Request) {w : World η ω}
    {w' : World η ω'} (hrel : R w w') (hcurrent : w.current = w'.current) :
  ((decide behave req).run w).1 = ((decide behave' req).run w').1 ∧
    R ((decide behave req).run w).2 ((decide behave' req).run w').2
  := by
  rw [decide_run, decide_run, ← hcurrent]
  exact (h.panel w.current).byGates req _ _ w w' hrel

/-- A transaction comes to the same for the same instance. -/
theorem alike_commit (hR : SameInstance R) (t : Transaction) :
  AlikeExcept R (commit t) (commit t)
  := by
  rintro ⟨i, host⟩ ⟨i', host'⟩ hrel
  obtain rfl : i = i' := hR.current hrel
  rw [commit_run, commit_run]
  cases t i.store with
  | error e => exact ⟨rfl, hrel⟩
  | ok d => exact ⟨rfl, hR.replace hrel _⟩

/-- A creation comes to the same on both hosts. -/
theorem alike_establish (h : behave.Alike R behave') (hR : SameInstance R) (now : UInt64)
    (c : Creation) :
  AlikeExcept R (establish behave now c.caller c.pair c.grantee c.manager)
    (establish behave' now c.caller c.pair c.grantee c.manager)
  := by
  rintro ⟨i, host⟩ ⟨i', host'⟩ hrel
  obtain rfl : i = i' := hR.current hrel
  have hdecide := alike_decide h (c.request i.config.resource now) hrel rfl
  rcases hv : (decide behave (c.request i.config.resource now)).run ⟨i, host⟩ with ⟨decision, v⟩
  rcases hv' : (decide behave' (c.request i.config.resource now)).run ⟨i, host'⟩ with
    ⟨decision', v'⟩
  rw [hv, hv'] at hdecide
  obtain ⟨rfl, hrest⟩ := hdecide
  rw [establish_run hv, establish_run hv']
  split
  · exact ⟨rfl, hrel⟩
  · split
    · exact ⟨rfl, hrel⟩
    · split
      · apply alike_commit hR _ v v' hrest
      · exact ⟨rfl, hrest⟩

/-- An operation comes to the same on both hosts. -/
theorem alike_perform (h : behave.Alike R behave') (hR : SameInstance R) (now : UInt64)
    (op : Operation) :
  AlikeExcept R (perform behave now op) (perform behave' now op)
  := by
  rintro ⟨i, host⟩ ⟨i', host'⟩ hrel
  obtain rfl : i = i' := hR.current hrel
  rw [perform_run, perform_run]
  cases op.kind.screen i.config with
  | error e => exact ⟨rfl, hrel⟩
  | ok _ =>
      cases op.kind with
      | bootstrap root => apply alike_commit hR _ _ _ hrel
      | freeze => apply alike_commit hR _ _ _ hrel
      | create c => apply alike_establish h hR now c _ _ hrel
      | manage caller p task => apply alike_commit hR _ _ _ hrel

/-- A query has the same answer on both hosts. -/
theorem alike_answer (h : behave.Alike R behave') (hR : SameInstance R) (now : UInt64)
    (q : Query) :
  AlikeExcept R (answer behave now q) (answer behave' now q)
  := by
  have hstored : ∀ {α : Type} (read : Store → Except AccessError α) (f : α → Answer),
      AlikeExcept R (do return f (← stored read) : Attempt η ω Answer)
        (do return f (← stored read) : Attempt η ω' Answer) := by
    rintro α read f ⟨i, host⟩ ⟨i', host'⟩ hrel
    obtain rfl : i = i' := hR.current hrel
    rw [read_run, read_run]
    exact ⟨rfl, hrel⟩
  have hdecide : ∀ (req : Request) (f : Decision → Answer),
      AlikeExcept R
        (do return f (← (decide behave req : StateM (World η ω) Decision)) : Attempt η ω Answer)
        (do return f (← (decide behave' req : StateM (World η ω') Decision)) :
          Attempt η ω' Answer) := by
    intro req f
    have hdecided : DelegatedAccess.Alike R (decide behave req) (decide behave' req) :=
      fun _ _ hrel => alike_decide h req hrel (hR.current hrel)
    apply AlikeExcept.bind (AlikeExcept.lift hdecided)
    intro d
    apply AlikeExcept.pure
  cases q with
  | status =>
      rintro ⟨i, host⟩ ⟨i', host'⟩ hrel
      obtain rfl : i = i' := hR.current hrel
      exact ⟨rfl, hrel⟩
  | config =>
      rintro ⟨i, host⟩ ⟨i', host'⟩ hrel
      obtain rfl : i = i' := hR.current hrel
      exact ⟨rfl, hrel⟩
  | has e p args => apply hdecide _ fun d => .truth (d = .granted)
  | check req => apply hdecide req .decision
  | manager p => apply hstored (·.manager? p) .manager
  | grant e p => apply hstored (fun s => .ok (s.grant? p e)) .grant
  | ruleCount e p => apply hstored (·.rulesOf p e) fun rules => .count rules.length
  | rule e p index => apply hstored (·.rulesOf p e) fun rules => .rule rules[index]?
  | grantees p => apply hstored (fun s => .ok (s.grantees p)) .grantees

/-- An act comes to the same on both hosts, when their oracles are alike. -/
theorem alike_act (h : behave.Alike R behave') (hR : SameInstance R) (now : UInt64) (a : Act η) :
  AlikeExcept R (act behave now a) (act behave' now a)
  := by
  cases a with
  | operation op =>
      apply AlikeExcept.bind (alike_perform h hR now op)
      intro receipt
      apply AlikeExcept.pure
  | query q =>
      apply AlikeExcept.bind (alike_answer h hR now q)
      intro a
      apply AlikeExcept.pure
  | register e handle =>
      rintro ⟨i, host⟩ ⟨i', host'⟩ hrel
      obtain rfl : i = i' := hR.current hrel
      exact ⟨rfl, hR.replace hrel _⟩
  | addSink name =>
      rintro ⟨i, host⟩ ⟨i', host'⟩ hrel
      obtain rfl : i = i' := hR.current hrel
      exact ⟨rfl, hR.replace hrel _⟩
  | reopen config template =>
      rintro ⟨i, host⟩ ⟨i', host'⟩ hrel
      obtain rfl : i = i' := hR.current hrel
      rw [reopen_run, reopen_run]
      cases Instance.reopen config template i.store with
      | error e => exact ⟨rfl, hrel⟩
      | ok i => exact ⟨rfl, hR.replace hrel i⟩

end

/-! ### Notes -/

/-- The world whose host keeps notes besides its state. -/
def keeping (w : World η ω) (notes : List ι) : World η (ω × List ι) :=
  ⟨w.current, (w.host, notes)⟩

/-- The world without the notes that its host keeps. -/
def forget (w : World η (ω × List ι)) : World η ω :=
  ⟨w.current, w.host.1⟩

/-- The notes that the host of a world keeps. -/
def notes (w : World η (ω × List ι)) : List ι :=
  w.host.2

/-- A world is what it is without its notes, and the notes. -/
theorem keeping_forget (w : World η (ω × List ι)) :
  w.forget.keeping w.notes = w
  := rfl

/-- The notes that are kept are found. -/
@[simp] theorem notes_keeping (w : World η ω) (notes : List ι) :
  (w.keeping notes).notes = notes
  := rfl

/-- The notes have nothing to do with the instance. -/
theorem sameInstance_forget :
  SameInstance fun (w : World η (ω × List ι)) (v : World η ω) => w.forget = v
  where
  current h := congrArg World.current h
  replace h i := congrArg (fun w : World η ω => { w with current := i }) h

end DelegatedAccess.World
