import DelegatedAccess.Proofs.Isolation
import DelegatedAccess.Proofs.Rule.Asking
import DelegatedAccess.Proofs.Rule.Failure

/-!
# Checks try two grants

Two grants count for a request: the one stored for the entity that asks, and the one stored for
every entity. Each comes to an outcome, or to none if nothing is stored that can be read as a grant.
The grant to every entity is tried only if the first one does not pass, in the world that the
oracles have left by then.

The main result of this module is that a check always comes to a decision, whatever the store holds
and whatever the oracles do: it is granted if one of the two grants passes, and else misconfigured
with the first error there is, and else denied.
-/

namespace DelegatedAccess

/-- The first error among outcomes. -/
def firstError? (outcomes : List (Except RuleError Bool)) : Option RuleError :=
  outcomes.findSome? fun
    | .error e => some e
    | .ok _ => none

/-- A decision is the right one on outcomes: it is granted when one of them is a pass, and else
misconfigured with the first error if there is one, and else denied. -/
structure Decides (outcomes : List (Except RuleError Bool)) (d : Decision) : Prop where
  granted : d = .granted ↔ .ok true ∈ outcomes
  misconfigured : ∀ e, d = .misconfigured e ↔ .ok true ∉ outcomes ∧ firstError? outcomes = some e
  denied : d = .denied ↔ ∀ x ∈ outcomes, x = .ok false

/-- The decision on outcomes, from the last one to the first. -/
def decisionOn : List (Except RuleError Bool) → Decision
  | [] => .denied
  | .ok true :: _ => .granted
  | .ok false :: outcomes => decisionOn outcomes
  | .error e :: outcomes =>
      match decisionOn outcomes with
      | .granted => .granted
      | _ => .misconfigured e

/-- The decision on outcomes is the right one. -/
theorem decides_decisionOn (outcomes : List (Except RuleError Bool)) :
  Decides outcomes (decisionOn outcomes)
  := by
  induction outcomes with
  | nil => constructor <;> simp [decisionOn, firstError?]
  | cons x outcomes ih =>
      obtain ⟨hgranted, hmisconfigured, hdenied⟩ := ih
      match x with
      | .ok true => constructor <;> simp [decisionOn]
      | .ok false => constructor <;> simpa [decisionOn, firstError?]
      | .error e =>
          rw [decisionOn]
          by_cases h : decisionOn outcomes = .granted
          · rw [h]
            constructor <;> simp_all [firstError?]
          · have hnot : .ok true ∉ outcomes := mt hgranted.mpr h
            have herror : (match decisionOn outcomes with
              | .granted => Decision.granted
              | _ => .misconfigured e) = .misconfigured e := by
              cases hd : decisionOn outcomes with
              | granted => exact absurd hd h
              | denied => rfl
              | misconfigured e' => rfl
            rw [herror]
            constructor <;> simp_all [firstError?]

namespace World

variable {η ω ω' : Type}

/-- What the grant that an instance has stored for a holder comes to, when it is tried in a world.
What cannot be read as a grant is none. -/
def tryGrant (behave : Behaviour η ω) (i : Instance η) (req : Request) (holder : Entity) :
    StateM (World η ω) (Option (Except RuleError Bool)) :=
  match (i.store.grants.get? (req.question.pair.grantKey holder)).bind Grant.decode? with
  | none => pure none
  | some .unconditional => pure (some (.ok true))
  | some (.conditional r) =>
      match i.store.rules.get? r.bytes with
      | none => pure (some (.error (.missingRules r)))
      | some bs =>
          match Rule.decodeAll? bs with
          | none => pure (some (.error (.corrupted r)))
          | some rules =>
              some <$> (Rule.evaluate rules (panel behave i) req i.config.maxDepth.toNat).run

/-- What the grant to the entity that asks comes to, and the world that it leaves. -/
def tryOwn (behave : Behaviour η ω) (req : Request) (w : World η ω) :
    Option (Except RuleError Bool) × World η ω :=
  (tryGrant behave w.current req req.question.who).run w

/-- What the grant to every entity comes to after the grant to the entity that asks, if these are
two, and the world that it leaves. The instance is the one from which the first grant was read. -/
def tryPublic (behave : Behaviour η ω) (req : Request) (w : World η ω) :
    Option (Except RuleError Bool) × World η ω :=
  if req.question.who = .any then (none, (tryOwn behave req w).2)
  else (tryGrant behave w.current req .any).run (tryOwn behave req w).2

/-! ### Gates -/

/-- What a gate comes to, if there is one. -/
def tryGate {σ : Type} (panel : Panel σ) (req : Request) (limit : Nat) :
    Option Gate → StateM σ (Option (Except RuleError Bool))
  | none => pure none
  | some gate => some <$> (gate.passes panel req limit).run

/-- A decision by a gate, if there is one, and others: the others are looked at unless the gate
passes, and an error of the gate is reported unless one of them passes. -/
theorem byGates_toList_append_run {σ : Type} (panel : Panel σ) (req : Request) (limit : Nat)
    (gate : Option Gate) (gates : List Gate) (s : σ) :
  (Decision.byGates panel req limit (gate.toList ++ gates)).run s =
    match (tryGate panel req limit gate).run s with
    | (none, t) => (Decision.byGates panel req limit gates).run t
    | (some (.ok true), t) => (.granted, t)
    | (some (.ok false), t) => (Decision.byGates panel req limit gates).run t
    | (some (.error e), t) =>
        match (Decision.byGates panel req limit gates).run t with
        | (.granted, u) => (.granted, u)
        | (_, u) => (.misconfigured e, u)
  := by
  cases gate with
  | none => rfl
  | some gate =>
      rw [Option.toList_some, List.singleton_append, Decision.byGates_cons_run, tryGate,
        StateT.run_map]
      obtain ⟨x, t⟩ := (gate.passes panel req limit).run.run s
      match x with
      | .ok true => rfl
      | .ok false => rfl
      | .error e => rfl

/-- A grant is tried by its gate. -/
theorem tryGrant_eq (behave : Behaviour η ω) (i : Instance η) (req : Request) (holder : Entity) :
  tryGrant behave i req holder =
    tryGate (panel behave i) req i.config.maxDepth.toNat
      ((i.store.grant? req.question.pair holder).map i.store.gate)
  := by
  rw [tryGrant, Store.grant?]
  cases (i.store.grants.get? (req.question.pair.grantKey holder)).bind Grant.decode? with
  | none => rfl
  | some grant =>
      cases grant with
      | unconditional => rfl
      | conditional r =>
          rw [Option.map_some, Store.gate, Store.loadRules]
          dsimp only
          cases i.store.rules.get? r.bytes with
          | none => rfl
          | some bs =>
              dsimp only
              cases Rule.decodeAll? bs <;> rfl

/-- The gates of the grants that count are that of the grant to the entity that asks, and that of
the grant to every entity, as far as they are there. -/
theorem map_gate_holders (s : Store) (p : Pair) (e : Entity) :
  ((s.holders p e).map fun h => s.gate h.2) =
    ((s.grant? p e).map s.gate).toList ++
      (if e = .any then none else (s.grant? p .any).map s.gate).toList
  := by
  rw [Store.holders]
  by_cases he : e = .any
  · rw [if_pos he, if_pos he]
    cases hown : s.grant? p e <;> simp [hown]
  · rw [if_neg he, if_neg he]
    cases hown : s.grant? p e <;> cases hpublic : s.grant? p .any <;> simp [hown, hpublic]

/-! ### Decisions -/

/-- What the grants that are tried come to, in the order in which they are tried. -/
def outcomes (behave : Behaviour η ω) (req : Request) (w : World η ω) :
    List (Except RuleError Bool) :=
  (tryOwn behave req w).1.toList ++ (tryPublic behave req w).1.toList

/-- The world that is left when the grants have been tried. -/
def tried (behave : Behaviour η ω) (req : Request) (w : World η ω) : World η ω :=
  if (tryOwn behave req w).1 = some (.ok true) then (tryOwn behave req w).2
  else (tryPublic behave req w).2

/-- A request is decided by what the grants come to. -/
theorem decide_tries (behave : Behaviour η ω) (req : Request) (w : World η ω) :
  (decide behave req).run w = (decisionOn (outcomes behave req w), tried behave req w)
  := by
  have hown : tryOwn behave req w = (tryGate (panel behave w.current) req
      w.current.config.maxDepth.toNat
      ((w.current.store.grant? req.question.pair req.question.who).map
        w.current.store.gate)).run w := by
    rw [tryOwn, tryGrant_eq]
  have hpublic : tryPublic behave req w = (tryGate (panel behave w.current) req
      w.current.config.maxDepth.toNat (if req.question.who = .any then none else
        (w.current.store.grant? req.question.pair .any).map w.current.store.gate)).run
      (tryOwn behave req w).2 := by
    rw [tryPublic]
    split
    · rfl
    · rw [tryGrant_eq]
  have hrest := byGates_toList_append_run (panel behave w.current) req
    w.current.config.maxDepth.toNat (if req.question.who = .any then none else
      (w.current.store.grant? req.question.pair .any).map w.current.store.gate) []
    (tryOwn behave req w).2
  rw [← hpublic, List.append_nil] at hrest
  rw [decide_run, map_gate_holders, byGates_toList_append_run, ← hown, outcomes, tried]
  generalize tryOwn behave req w = own at hrest ⊢
  generalize tryPublic behave req w = pub at hrest ⊢
  obtain ⟨x, v⟩ := own
  obtain ⟨y, u⟩ := pub
  -- the grant to every entity decides alone, if it is tried
  have halone : (Decision.byGates (panel behave w.current) req w.current.config.maxDepth.toNat
      (if req.question.who = .any then none else
        (w.current.store.grant? req.question.pair .any).map w.current.store.gate).toList).run v =
      (decisionOn y.toList, u) := by
    rw [hrest]
    match y with
    | none => rfl
    | some (.ok true) => rfl
    | some (.ok false) => rfl
    | some (.error e) => rfl
  match x with
  | none => exact halone
  | some (.ok true) => rfl
  | some (.ok false) => exact halone
  | some (.error e) =>
      dsimp only
      rw [halone]
      change _ = (decisionOn (.error e :: y.toList), u)
      rw [decisionOn]
      cases decisionOn y.toList <;> rfl

/-! ### Calls -/

/-- Oracles that are alike try a grant alike. -/
theorem alike_tryGrant {R : World η ω → World η ω' → Prop} {behave : Behaviour η ω}
    {behave' : Behaviour η ω'} (h : behave.Alike R behave') (i : Instance η) (req : Request)
    (holder : Entity) :
  DelegatedAccess.Alike R (tryGrant behave i req holder) (tryGrant behave' i req holder)
  := by
  rw [tryGrant, tryGrant]
  cases (i.store.grants.get? (req.question.pair.grantKey holder)).bind Grant.decode? with
  | none => apply Alike.pure
  | some grant =>
      cases grant with
      | unconditional => apply Alike.pure
      | conditional r =>
          dsimp only
          cases i.store.rules.get? r.bytes with
          | none => apply Alike.pure
          | some bs =>
              dsimp only
              cases Rule.decodeAll? bs with
              | none => apply Alike.pure
              | some rules =>
                  dsimp only
                  rw [← bind_pure_comp, ← bind_pure_comp]
                  apply Alike.bind ((h.panel i).evaluate rules req i.config.maxDepth.toNat)
                  intro x
                  apply Alike.pure

/-- The calls that are made when a grant is tried in a world, by the oracles that are asked. -/
def callsOf (behave : Behaviour η ω) (i : Instance η) (req : Request) (holder : Entity)
    (w : World η ω) : List (η × Question) :=
  ((tryGrant (noting behave) i req holder).run (w.keeping [])).2.notes

/-- When calls are noted, a grant comes to the same, and its calls are added to the notes. -/
theorem tryGrant_noting_run (behave : Behaviour η ω) (i : Instance η) (req : Request)
    (holder : Entity) (w : World η ω) (notes : List (η × Question)) :
  (tryGrant (noting behave) i req holder).run (w.keeping notes) =
    (((tryGrant behave i req holder).run w).1,
      ((tryGrant behave i req holder).run w).2.keeping (notes ++ callsOf behave i req holder w))
  := by
  -- earlier notes stay in front of the new ones
  have halike : (noting behave).Alike (fun u v => u = v.forget.keeping (notes ++ v.notes))
      (noting behave) := by
    rintro handle q _ v rfl
    refine ⟨rfl, ?_⟩
    change keeping _ ((notes ++ v.notes) ++ [(handle, q)]) =
      keeping _ (notes ++ (v.notes ++ [(handle, q)]))
    rw [List.append_assoc]
    rfl
  obtain ⟨hresult, _⟩ :=
    alike_tryGrant (alike_noting behave) i req holder (w.keeping notes) w rfl
  obtain ⟨_, hforget⟩ := alike_tryGrant (alike_noting behave) i req holder (w.keeping []) w rfl
  obtain ⟨_, hnotes⟩ := alike_tryGrant halike i req holder (w.keeping notes) (w.keeping []) (by
    rw [notes_keeping, List.append_nil]
    rfl)
  apply Prod.ext hresult
  rw [hnotes, hforget]
  rfl

/-- The calls that an evaluation makes ask the question of the request. -/
theorem question_of_mem_notes {behave : Behaviour η ω} {i : Instance η} {rules : List Rule}
    {req : Request} {limit : Nat} {w : World η ω} {c : η × Question}
    (hc : c ∈ ((Rule.evaluate rules (panel (noting behave) i) req limit).run.run
      (w.keeping [])).2.notes) :
  c.2 = req.question
  := by
  have halike : (panel (noting behave) i).Alike
      (fun u v => u.forget = v.1 ∧ u.notes.map Prod.snd = v.2.map Prod.snd)
      (panel behave i).recording := by
    intro e
    rw [panel, Panel.recording, panel]
    cases i.oracle? e with
    | none => apply Option.Rel.none
    | some handle =>
        apply Option.Rel.some
        rintro q u ⟨_, calls⟩ ⟨rfl, hcalls⟩
        refine ⟨rfl, rfl, ?_⟩
        change (u.notes ++ [(handle, q)]).map Prod.snd = (calls ++ [(e, q)]).map Prod.snd
        rw [List.map_append, List.map_append, hcalls]
        rfl
  obtain ⟨_, _, hquestions⟩ := halike.evaluate rules req limit (w.keeping []) (w, []) ⟨rfl, rfl⟩
  change _ = (((Rule.evaluate rules (panel behave i).recording req limit).run.run (w, [])).2.2.map
    Prod.snd) at hquestions
  rw [(Rule.traceAll_run rules (panel behave i) req limit w).2] at hquestions
  have hmem : c.2 ∈ ((Rule.trace rules (panel behave i) req limit w).calls.map
      OracleCall.seen).map Prod.snd := hquestions ▸ List.mem_map_of_mem hc
  rw [List.map_map] at hmem
  obtain ⟨call, hcall, heq⟩ := List.mem_map.mp hmem
  have hmade := (Rule.trace_isOrderly rules (panel behave i) req limit w).made call hcall
  rw [← heq]
  exact hmade.question

/-- The calls that are made when a grant is tried ask the question of the request. -/
theorem question_of_mem_callsOf {behave : Behaviour η ω} {i : Instance η} {req : Request}
    {holder : Entity} {w : World η ω} {c : η × Question}
    (hc : c ∈ callsOf behave i req holder w) :
  c.2 = req.question
  := by
  rw [callsOf, tryGrant] at hc
  split at hc
  · contradiction
  · contradiction
  · split at hc
    · contradiction
    · split at hc
      · contradiction
      · exact question_of_mem_notes hc

/-- The calls of a check: those of the grant to the entity that asks, and then, unless this grant
passes or the entity is every entity, those of the grant to every entity. -/
def checkCalls (behave : Behaviour η ω) (req : Request) (w : World η ω) : List (η × Question) :=
  callsOf behave w.current req req.question.who w ++
    if (tryOwn behave req w).1 = some (.ok true) ∨ req.question.who = .any then []
    else callsOf behave w.current req .any (tryOwn behave req w).2

/-- When calls are noted, the grant to the entity that asks comes to the same, after its calls. -/
theorem tryOwn_noting (behave : Behaviour η ω) (req : Request) (w : World η ω) :
  tryOwn (noting behave) req (w.keeping []) =
    ((tryOwn behave req w).1, (tryOwn behave req w).2.keeping
      (callsOf behave w.current req req.question.who w))
  := tryGrant_noting_run behave w.current req req.question.who w []

/-- When calls are noted, the grants come to the same, after the calls of the check. -/
theorem decide_noting_tries (behave : Behaviour η ω) (req : Request) (w : World η ω) :
  (decide (noting behave) req).run (w.keeping []) =
    (decisionOn (outcomes behave req w),
      (tried behave req w).keeping (checkCalls behave req w))
  := by
  have hpublic : tryPublic (noting behave) req (w.keeping []) =
      ((tryPublic behave req w).1, (tryPublic behave req w).2.keeping
        (callsOf behave w.current req req.question.who w ++
          if req.question.who = .any then []
          else callsOf behave w.current req .any (tryOwn behave req w).2)) := by
    rw [tryPublic, tryPublic, tryOwn_noting]
    split
    · rw [List.append_nil]
    · apply tryGrant_noting_run
  rw [decide_tries, outcomes, outcomes, tried, tried, checkCalls, tryOwn_noting, hpublic]
  dsimp only
  by_cases hpasses : (tryOwn behave req w).1 = some (.ok true)
  · rw [if_pos hpasses, if_pos hpasses, if_pos (Or.inl hpasses), List.append_nil]
  · rw [if_neg hpasses, if_neg hpasses]
    simp only [hpasses, false_or]

/-- A check always comes to a decision, whatever is stored and whatever the oracles do. It is
granted exactly when the grant to the entity that asks passes, or the grant to every entity does. If
none passes, it is misconfigured exactly with the first error of the two in this order, and denied
exactly when there is none. The grant to every entity is tried only if the first one does not pass:
otherwise the check leaves the world that the first one leaves, and makes no further calls. All
calls ask the question of the request, in which the asking entity is named. -/
theorem check_tries_grants (behave : Behaviour η ω) (now : UInt64) (req : Request)
    (w : World η ω) :
  ∃ d, (answer behave now (.check req)).run.run w = (.ok (.decision d), tried behave req w) ∧
    (d = .granted ↔ .ok true ∈ outcomes behave req w) ∧
    (∀ e, d = .misconfigured e ↔
      .ok true ∉ outcomes behave req w ∧ firstError? (outcomes behave req w) = some e) ∧
    (d = .denied ↔ ∀ x ∈ outcomes behave req w, x = .ok false) ∧
    (answer (noting behave) now (.check req)).run.run (w.keeping []) =
      (.ok (.decision d), (tried behave req w).keeping (checkCalls behave req w)) ∧
    ∀ c ∈ checkCalls behave req w, c.2 = req.question
  := by
  obtain ⟨hgranted, hmisconfigured, hdenied⟩ := decides_decisionOn (outcomes behave req w)
  refine ⟨_, ?_, hgranted, hmisconfigured, hdenied, ?_, ?_⟩
  · rw [check_run, decide_tries]
  · rw [check_run, decide_noting_tries]
  · intro c hc
    rcases List.mem_append.mp hc with hc | hc
    · apply question_of_mem_callsOf hc
    · split at hc
      · contradiction
      · apply question_of_mem_callsOf hc

end World

end DelegatedAccess
