import DelegatedAccess.Proofs.Consultation

/-!
# What becomes of an operation

When the oracles leave the instance alone, what becomes of an operation can be read off the instance
and the decision on its request: the operation is refused for the first thing that is wrong, with
its input or with the state of the store, and otherwise commits the draft of its kind. A refusal
leaves the instance as it was.

The main result of this module says so about the creation of a pair, whose request is decided as
anybody would find it by asking, and which changes nothing but the grant, the manager, and the
stored rule sequences by the one that it grants under.
-/

namespace DelegatedAccess

variable {η ω : Type}

/-! ### What is wrong with the input -/

/-- A refusal, if there is a reason for one. -/
def refuse : Option AccessError → Except AccessError Unit
  | none => .ok ()
  | some e => .error e

/-- What is refused first is refused. -/
theorem refuse_bind (e? e?' : Option AccessError) :
  (do refuse e?; refuse e?' : Except AccessError Unit) = refuse (e?.or e?')
  := by
  cases e? <;> rfl

/-- What is wrong with a rule sequence under a configuration, if anything is: it may be too long, or
not well structured. -/
def Config.flaw? (config : Config) (rules : List Rule) : Option AccessError :=
  if config.maxRules.toNat < rules.length then
    some (.invalidRules (.tooMany rules.length config.maxRules.toNat))
  else
    match Rule.checkStructure rules with
    | .error e => some (.invalidRules (.malformed e))
    | .ok () => none

namespace Operation.Kind

/-- What is wrong with the input of an operation under a configuration, if anything is. -/
def flaw? (config : Config) : Kind → Option AccessError
  | .bootstrap root => if root.IsReserved then some (.reservedEntity root .root) else none
  | .freeze => none
  | .create c =>
      match c.grantee with
      | none => none
      | some (e, rules) =>
          if e = .burn then some (.reservedEntity e .grantee)
          else if c.manager.IsReserved then some (.reservedEntity c.manager .manager)
          else config.flaw? rules
  | .manage _ _ (.grant e rules) =>
      if e = .burn then some (.reservedEntity e .grantee) else config.flaw? rules
  | .manage _ _ (.setManager m) =>
      if m.IsReserved then some (.reservedEntity m .manager) else none
  | .manage .. => none

end Operation.Kind

/-- A rule sequence with a flaw is not accepted. -/
theorem Config.acceptRules_eq (config : Config) (rules : List Rule) :
  config.acceptRules rules = refuse (config.flaw? rules)
  := by
  rw [acceptRules, flaw?]
  split
  · rfl
  · cases Rule.checkStructure rules <;> rfl

/-- An operation is screened for what is wrong with its input. -/
theorem Operation.Kind.screen_eq (kind : Operation.Kind) (config : Config) :
  kind.screen config = refuse (kind.flaw? config)
  := by
  have hgrantee : ∀ e, World.requireGrantee e =
      refuse (if e = .burn then some (.reservedEntity e .grantee) else none) := by
    intro e
    rw [World.requireGrantee]
    split <;> rfl
  have hactor : ∀ e usage, World.requireActor e usage =
      refuse (if e.IsReserved then some (.reservedEntity e usage) else none) := by
    intro e usage
    rw [World.requireActor]
    split <;> rfl
  have hor : ∀ (c : Prop) [Decidable c] (e : AccessError) (e? : Option AccessError),
      (if c then some e else none).or e? = if c then some e else e? := by
    intro c _ e e?
    split <;> rfl
  cases kind with
  | bootstrap root => apply hactor
  | freeze => rfl
  | create c =>
      obtain ⟨caller, p, grantee, m⟩ := c
      cases grantee with
      | none => rfl
      | some g =>
          change (do World.requireGrantee g.1; World.requireActor m .manager
                     config.acceptRules g.2) = _
          rw [hgrantee, hactor, config.acceptRules_eq, refuse_bind, refuse_bind, hor, hor]
          rfl
  | manage caller p task =>
      cases task with
      | grant e rules =>
          change (do World.requireGrantee e; config.acceptRules rules) = _
          rw [hgrantee, config.acceptRules_eq, refuse_bind, hor]
          rfl
      | setManager m => apply hactor
      | revoke e => rfl
      | removeManager => rfl
      | burnManager => rfl

/-! ### What is wrong with the state -/

namespace Operation.Kind

/-- What stands in the way of an operation in a store, if anything does, when its request is decided
in some way. -/
def obstacle? (s : Store) (decision : Decision) : Kind → Option AccessError
  | .bootstrap _ =>
      if s.isFrozen then some (.initialization .frozen)
      else if s.isInitialized then some (.initialization .alreadyInitialized)
      else none
  | .freeze =>
      if s.isFrozen then none
      else if s.isInitialized then some (.initialization .freezeInitialized)
      else none
  | .create c =>
      if s.isInitialized = false then some (.initialization .notInitialized)
      else if c.caller.IsReserved ∨ decision ≠ .granted then
        some (.unauthorized c.caller .createPermissions c.pair)
      else if s.manager? c.pair ≠ .ok none then some (.managerExists c.pair)
      else none
  | .manage caller p task =>
      if s.isInitialized = false then some (.initialization .notInitialized)
      else if caller.IsReserved ∨ s.manager? p ≠ .ok (some caller) then
        some (.unauthorized caller task.action p)
      else none

/-- Why an operation is refused by an instance, if it is: its input counts first. -/
def refusal? (i : Instance η) (decision : Decision) (kind : Kind) : Option AccessError :=
  (kind.flaw? i.config).or (kind.obstacle? i.store decision)

/-- The draft that an operation makes of a store when nothing stands in its way, on an instance with
a given resource. -/
def draft (resource : Resource) (now : UInt64) (s : Store) : Kind → Draft
  | .bootstrap root =>
      (((Draft.start s).setGrant (Transaction.creationPair resource) root none).setManager
        (Transaction.creationPair resource) root).markInitialized root now
  | .freeze => if s.isFrozen then Draft.start s else (Draft.start s).markFrozen
  | .create c => c.draft (Draft.start s)
  | .manage _ p task => task.draft p (Draft.start s)

end Operation.Kind

namespace World

@[simp] theorem config_settle (w : World η ω) (d : Draft) :
  (w.settle d).current.config = w.current.config
  := rfl

@[simp] theorem oracles_settle (w : World η ω) (d : Draft) :
  (w.settle d).current.oracles = w.current.oracles
  := rfl

variable {behave : Behaviour η ω} {w : World η ω}

/-- A transaction leaves the world, or settles the draft of the kind, according to what stands in
the way of the operation. -/
theorem commit_verdict {t : Transaction} (kind : Operation.Kind) (now : UInt64)
    (decision : Decision)
    (ht : t w.current.store = match kind.obstacle? w.current.store decision with
      | some e => .error e
      | none => .ok (kind.draft w.current.config.resource now w.current.store)) :
  (commit t).run.run w =
    match kind.obstacle? w.current.store decision with
    | some e => (.error e, w)
    | none => (.ok (kind.draft w.current.config.resource now w.current.store).receipt,
        w.settle (kind.draft w.current.config.resource now w.current.store))
  := by
  rw [commit_run, ht]
  cases kind.obstacle? w.current.store decision <;> rfl

/-- A task is refused to all but the manager of its pair. -/
theorem commit_task_verdict (hs : w.current.store.Sound) (caller : Entity) (p : Pair) (task : Task)
    (now : UInt64) (decision : Decision) :
  (commit (task.transaction caller p)).run.run w =
    match (Operation.Kind.manage caller p task).obstacle? w.current.store decision with
    | some e => (.error e, w)
    | none => (.ok (task.draft p (Draft.start w.current.store)).receipt,
        w.settle (task.draft p (Draft.start w.current.store)))
  := by
  apply commit_verdict (.manage caller p task) now decision
  obtain ⟨m, hm, _⟩ := hs.manager? p
  rw [Task.transaction_eq, Store.requireManager_eq, Operation.Kind.obstacle?, hm]
  by_cases hinitialized : w.current.store.isInitialized = false
  · rw [if_pos hinitialized, if_pos hinitialized]
  · rw [if_neg hinitialized, if_neg hinitialized]
    by_cases hcaller : caller.IsReserved
    · rw [if_pos hcaller, if_pos (Or.inl hcaller)]
    · by_cases hmanager : m = some caller
      · rw [if_neg hcaller, if_neg (by simp [hcaller, hmanager])]
        dsimp only
        rw [if_pos hmanager]
        rfl
      · rw [if_neg hcaller, if_pos (by simp [hmanager])]
        dsimp only
        rw [if_neg hmanager]

/-- The creation of a pair is refused unless its request is granted and the pair has no manager. -/
theorem establish_verdict (hs : w.current.store.Sound) (hinert : behave.IsInert) (now : UInt64)
    {c : Creation} (hscreen : c.screen w.current.config = .ok ()) :
  (establish behave now c.caller c.pair c.grantee c.manager).run.run w =
    match (Operation.Kind.create c).obstacle? w.current.store
      ((consult behave now (.create c)).run w).1 with
    | some e => (.error e, consulted behave now (.create c) w)
    | none => (.ok (c.draft (Draft.start w.current.store)).receipt,
        (consulted behave now (.create c) w).settle (c.draft (Draft.start w.current.store)))
  := by
  rw [consult_create]
  rcases hdecide : (decide behave (c.request w.current.config.resource now)).run w with
    ⟨decision, v⟩
  have hcurrent : v.current = w.current := by
    rw [← hinert.current_decide (c.request w.current.config.resource now) w, hdecide]
  rw [establish_run hdecide]
  dsimp only
  by_cases hinitialized : w.current.store.isInitialized = false
  · rw [if_pos hinitialized, Operation.Kind.obstacle?, if_pos hinitialized,
      consulted_of_not_considered fun h => nomatch hinitialized.symm.trans h.initialized]
  · rw [if_neg hinitialized]
    by_cases hcaller : c.caller.IsReserved
    · rw [if_pos hcaller, Operation.Kind.obstacle?, if_neg hinitialized, if_pos (Or.inl hcaller),
        consulted_of_not_considered fun h => h.actor hcaller]
    · have hv : consulted behave now (.create c) w = v := by
        rw [consulted, if_pos ⟨hscreen, Bool.not_eq_false _ ▸ hinitialized, hcaller⟩, hdecide]
      rw [if_neg hcaller, hv]
      by_cases hgranted : decision = .granted
      · subst hgranted
        rw [if_pos rfl, ← hcurrent]
        apply commit_verdict (.create c) now .granted
        obtain ⟨m, hm, _⟩ := hs.manager? c.pair
        rw [Transaction.create_eq, Operation.Kind.obstacle?, hcurrent, if_neg hinitialized,
          if_neg (by simp [Instance.creationPair]), if_neg hinitialized, if_neg (by simp [hcaller]),
          hm]
        cases m <;> rfl
      · rw [if_neg hgranted, Operation.Kind.obstacle?, if_neg hinitialized,
          if_pos (Or.inr hgranted)]

/-- An operation is refused for the first thing that is wrong, and otherwise commits its draft, to
the world that the oracles have left with the instance as it was. -/
theorem perform_verdict (hs : w.current.store.Sound) (hinert : behave.IsInert) (now : UInt64)
    (op : Operation) :
  (perform behave now op).run.run w =
    match op.kind.refusal? w.current ((consult behave now op.kind).run w).1 with
    | some e => (.error e, consulted behave now op.kind w)
    | none => (.ok (op.kind.draft w.current.config.resource now w.current.store).receipt,
        (consulted behave now op.kind w).settle
          (op.kind.draft w.current.config.resource now w.current.store))
  := by
  rw [perform_run, Operation.Kind.screen_eq, Operation.Kind.refusal?]
  generalize hkind : op.kind = kind
  cases hflaw : kind.flaw? w.current.config with
  | some e =>
      cases kind with
      | create c =>
          rw [consulted_of_not_considered]
          · rfl
          · intro h
            have hscreen := Operation.Kind.screen_eq (.create c) w.current.config
            rw [hflaw] at hscreen
            exact nomatch hscreen.symm.trans h.screened
      | bootstrap root => rfl
      | freeze => rfl
      | manage caller p task => rfl
  | none =>
      rw [Option.none_or]
      cases kind with
      | bootstrap root =>
          apply commit_verdict
          rw [Transaction.bootstrap_eq, Operation.Kind.obstacle?]
          cases w.current.store.isFrozen <;> cases w.current.store.isInitialized <;> rfl
      | freeze =>
          apply commit_verdict
          rw [Transaction.freeze_eq, Operation.Kind.obstacle?, Operation.Kind.draft]
          cases w.current.store.isFrozen <;> cases w.current.store.isInitialized <;> rfl
      | create c =>
          apply establish_verdict hs hinert
          have hscreen := Operation.Kind.screen_eq (.create c) w.current.config
          rw [hflaw] at hscreen
          exact hscreen
      | manage caller p task => apply commit_task_verdict hs caller p task now

end World

/-! ### Creations -/

/-- An entity as an argument of a request: its number. -/
def Entity.argument (e : Entity) : Value :=
  BitVec.ofNat 128 e.toNat

/-- The request of a creation asks for the creation capability, at height zero, with the grantee,
the resource of the pair and the manager as arguments. -/
theorem Creation.request_eq (c : Creation) (resource : Resource) (now : UInt64) :
  c.request resource now =
    ⟨⟨c.caller, Transaction.creationPair resource, [((c.grantee.map Prod.fst).getD .burn).argument,
      c.pair.resource.argument, c.manager.argument]⟩, ⟨now, 0⟩⟩
  := by
  have hargument : ∀ e : Entity, e.id.toBitVec.setWidth 128 = e.argument := by
    intro e
    rw [Entity.argument, ← BitVec.ofNat_toNat]
    rfl
  simp only [request, hargument]

/-- What becomes of a creation, from a world to another, when it is refused for some reason, if
there is one: it fails for this very reason and leaves the instance, or it succeeds and changes
nothing but the grant, the manager, and the rule sequence that it grants under. -/
structure Creation.ComesTo (c : Creation) (refusal? : Option AccessError) (w : World η ω)
    (result : Except AccessError Receipt) (u : World η ω) : Prop where
  error_iff : ∀ e, result = .error e ↔ refusal? = some e
  ok_iff : (∃ receipt, result = .ok receipt) ↔ refusal? = none
  unchanged : refusal? ≠ none → u.current = w.current
  grant : refusal? = none → ∀ e rules, c.grantee = some (e, rules) →
    u.current.store.grant? c.pair e =
      some (if rules = [] then .unconditional else .conditional (RuleRef.of rules))
  manager : refusal? = none → u.current.store.manager? c.pair = .ok (some c.manager)
  effect : refusal? = none → c.Effect w.current.store u.current.store
  settings : u.current.config = w.current.config ∧ u.current.oracles = w.current.oracles

/-- A creation changes the grant of its grantee. -/
theorem Creation.grant?_change (c : Creation) (s : Store) {e : Entity} {rules : List Rule}
    (h : c.grantee = some (e, rules)) :
  (c.change s).grant? c.pair e = some (Grant.under rules)
  := by
  rw [change, h]
  change (s.putGate c.pair e rules).grant? c.pair e = _
  rw [Store.grant?_putGate, if_pos ⟨rfl, rfl⟩]

namespace World

variable {behave : Behaviour η ω} {w : World η ω}

/-- A creation comes to what the instance and the decision on its request say. -/
theorem comesTo_perform (hs : w.current.store.Sound) (hinert : behave.IsInert) (now : UInt64)
    {op : Operation} {c : Creation} (hop : op.kind = .create c) :
  c.ComesTo (op.kind.refusal? w.current
      ((decide behave (c.request w.current.config.resource now)).run w).1) w
    ((perform behave now op).run.run w).1 ((perform behave now op).run.run w).2
  := by
  have hcurrent := hinert.current_consulted now op.kind w
  rw [perform_verdict hs hinert, hop, consult_create]
  rw [hop] at hcurrent
  cases (Operation.Kind.create c).refusal? w.current
      ((decide behave (c.request w.current.config.resource now)).run w).1 with
  | some e =>
      constructor
      · simp
      · simp
      · exact fun _ => hcurrent
      · exact fun h => nomatch h
      · exact fun h => nomatch h
      · exact fun h => nomatch h
      · exact ⟨congrArg Instance.config hcurrent, congrArg Instance.oracles hcurrent⟩
  | none =>
      dsimp only [Operation.Kind.draft]
      constructor
      · simp
      · simp
      · exact fun h => absurd rfl h
      · intro _ e rules hgrantee
        rw [store_settle, Creation.store_draft]
        exact c.grant?_change w.current.store hgrantee
      · intro _
        rw [store_settle, Creation.store_draft]
        apply Store.manager?_creation
      · intro _
        rw [store_settle, Creation.store_draft]
        apply Creation.effect_change
      · rw [config_settle, oracles_settle, hcurrent]
        exact ⟨rfl, rfl⟩

/-- In a reachable world, with oracles that leave the instance alone, the creation of a pair fails
for the first of these reasons that there is, and succeeds if there is none: the grantee is the
entity that stands for none, the manager is reserved, the rule sequence is too long or not well
structured, the instance is not initialized, the caller is reserved or is not granted the creation
capability, which is found as by asking for it now, or the pair has a manager, burned or not. When a
pair is created that nobody is granted, the same holds from the fourth reason on. -/
theorem creation_decided (hw : w.IsReachable) (hinert : behave.IsInert) (now : UInt64) :
  (∀ (caller e : Entity) (p : Pair) (m : Entity) (rules : List Rule), ∃ d,
      ((answer behave now (.check ⟨⟨caller, w.current.creationPair,
        [e.argument, p.resource.argument, m.argument]⟩, ⟨now, 0⟩⟩)).run.run w).1 =
          .ok (.decision d) ∧
      Creation.ComesTo ⟨caller, p, some (e, rules), m⟩
        (if e = .burn then some (.reservedEntity e .grantee)
        else if m.IsReserved then some (.reservedEntity m .manager)
        else if w.current.config.maxRules.toNat < rules.length then
          some (.invalidRules (.tooMany rules.length w.current.config.maxRules.toNat))
        else match Rule.checkStructure rules with
        | .error err => some (.invalidRules (.malformed err))
        | .ok () =>
            if w.current.store.isInitialized = false then some (.initialization .notInitialized)
            else if caller.IsReserved ∨ d ≠ .granted then
              some (.unauthorized caller .createPermissions p)
            else if w.current.store.manager? p ≠ .ok none then some (.managerExists p)
            else none)
        w ((perform behave now (.create caller e p m rules)).run.run w).1
        ((perform behave now (.create caller e p m rules)).run.run w).2) ∧
    ∀ (caller : Entity) (p : Pair), ∃ d,
      ((answer behave now (.check ⟨⟨caller, w.current.creationPair,
        [Entity.burn.argument, p.resource.argument, Entity.burn.argument]⟩,
          ⟨now, 0⟩⟩)).run.run w).1 = .ok (.decision d) ∧
      Creation.ComesTo ⟨caller, p, none, .burn⟩
        (if w.current.store.isInitialized = false then some (.initialization .notInitialized)
        else if caller.IsReserved ∨ d ≠ .granted then
          some (.unauthorized caller .createPermissions p)
        else if w.current.store.manager? p ≠ .ok none then some (.managerExists p)
        else none)
        w ((perform behave now (.createBurned caller p)).run.run w).1
        ((perform behave now (.createBurned caller p)).run.run w).2
  := by
  constructor
  · intro caller e p m rules
    refine ⟨_, answer_check_run behave now _ w, ?_⟩
    have h := comesTo_perform hw.sound hinert now
      (rfl : (Operation.create caller e p m rules).kind = .create ⟨caller, p, some (e, rules), m⟩)
    rw [Creation.request_eq] at h
    convert h using 1
    rw [Operation.Kind.refusal?, Operation.kind, Operation.Kind.flaw?]
    dsimp only
    split
    · rfl
    · split
      · rfl
      · rw [Config.flaw?]
        split
        · rfl
        · cases Rule.checkStructure rules <;> rfl
  · intro caller p
    refine ⟨_, answer_check_run behave now _ w, ?_⟩
    have h := comesTo_perform hw.sound hinert now
      (rfl : (Operation.createBurned caller p).kind = .create ⟨caller, p, none, .burn⟩)
    rw [Creation.request_eq] at h
    exact h

/-! ### An example -/

/-- A pair on the same resource. -/
def freshPair : Pair :=
  ⟨⟨.replicate 32 7⟩, ⟨9⟩⟩

/-- A world in which an entity may create pairs on one resource only, and has created one. -/
def restrictedWorld : World Unit Unit :=
  play agreeable 0
    [.operation (.bootstrap ⟨5⟩),
      .operation (.grant ⟨5⟩ ⟨6⟩ (Transaction.creationPair ⟨1⟩) [.argument 1 (.compare .eq) 9]),
      .operation (.createBurned ⟨6⟩ examplePair)]
    blank

/-- What the entity comes to when it creates a pair for a grantee and a manager, under a rule
sequence. -/
def restrictedCreation (p : Pair) : Except AccessError Receipt × World Unit Unit :=
  (perform agreeable 1 (.create ⟨6⟩ ⟨7⟩ p ⟨8⟩ [.always])).run.run restrictedWorld

/-- The answer to the question whether the entity may create a pair on a resource, for the grantee
and the manager. -/
def restrictedAnswer (resource : Resource) : Except AccessError Answer :=
  ((answer agreeable 1 (.check ⟨⟨⟨6⟩, restrictedWorld.current.creationPair,
    [Entity.argument ⟨7⟩, resource.argument, Entity.argument ⟨8⟩]⟩, ⟨1, 0⟩⟩)).run.run
      restrictedWorld).1

/-- The entity cannot create the pair again, whose manager is burned, nor a pair on the other
resource, but it can create another pair on the resource. -/
theorem creation_decided_restricted :
  restrictedWorld.IsReachable ∧
    (restrictedCreation examplePair).1 = .error (.managerExists examplePair) ∧
    (restrictedCreation otherPair).1 =
      .error (.unauthorized ⟨6⟩ .createPermissions otherPair) ∧
    (restrictedCreation otherPair).2.current = restrictedWorld.current ∧
    (∃ receipt, (restrictedCreation freshPair).1 = .ok receipt) ∧
    (restrictedCreation freshPair).2.current.store.grant? freshPair ⟨7⟩ =
      some (.conditional (RuleRef.of [.always])) ∧
    (restrictedCreation freshPair).2.current.store.manager? freshPair = .ok (some ⟨8⟩)
  := by
  have hw : restrictedWorld.IsReachable := isReachable_play run_agreeable 0 _
  obtain ⟨hlimit, hinitialized, hburned, hfree, hnear, hremote⟩ :
      ¬ restrictedWorld.current.config.maxRules.toNat < [Rule.always].length ∧
        ¬ restrictedWorld.current.store.isInitialized = false ∧
        restrictedWorld.current.store.manager? examplePair ≠ .ok none ∧
        ¬ restrictedWorld.current.store.manager? freshPair ≠ .ok none ∧
        restrictedAnswer ⟨9⟩ = .ok (.decision .granted) ∧
        restrictedAnswer ⟨10⟩ = .ok (.decision .denied) := by
    decide +kernel
  have hdecided : ∀ p d, restrictedAnswer p.resource = .ok (.decision d) →
      Creation.ComesTo ⟨⟨6⟩, p, some (⟨7⟩, [.always]), ⟨8⟩⟩
        (if d ≠ .granted then some (.unauthorized ⟨6⟩ .createPermissions p)
        else if restrictedWorld.current.store.manager? p ≠ .ok none then some (.managerExists p)
        else none)
        restrictedWorld (restrictedCreation p).1 (restrictedCreation p).2 := by
    intro p d hd
    obtain ⟨d', hd', h⟩ := (creation_decided hw isInert_agreeable 1).1 ⟨6⟩ ⟨7⟩ p ⟨8⟩ [.always]
    obtain rfl : d = d' := Answer.decision.inj (Except.ok.inj (hd.symm.trans hd'))
    have hcheck : Rule.checkStructure [.always] = .ok () := by decide
    have hactor : ¬ Entity.IsReserved ⟨6⟩ := by decide
    rw [if_neg (by decide), if_neg (by decide), if_neg hlimit, hcheck] at h
    dsimp only at h
    simp only [if_neg hinitialized, hactor, false_or] at h
    exact h
  have hagain := hdecided examplePair .granted hnear
  have hother := hdecided otherPair .denied hremote
  have hfresh := hdecided freshPair .granted hnear
  rw [if_neg (by decide), if_pos hburned] at hagain
  rw [if_pos (by decide)] at hother
  rw [if_neg (by decide), if_neg hfree] at hfresh
  exact ⟨hw, (hagain.error_iff _).mpr rfl, (hother.error_iff _).mpr rfl, hother.unchanged nofun,
    hfresh.ok_iff.mpr rfl, hfresh.grant rfl _ _ rfl, hfresh.manager rfl⟩

end World

end DelegatedAccess
