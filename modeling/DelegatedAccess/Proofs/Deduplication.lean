import DelegatedAccess.Proofs.Initialization
import DelegatedAccess.Proofs.Publication

/-!
# Rule sequences are stored once

A rule sequence is stored by the first operation that grants something under it, whatever the pair
and the grantee are, and that operation alone tells of it. Nothing takes it out again, so that no
later operation stores it, even if all grants under it were revoked in between, or the store was
opened again. The receipt of each operation refers to the sequence that the operation grants under,
new or not, and counts one write for each event that it tells of, but one more for initialization.

The main result of this module is that all this holds along every course from an empty store, where
"first" is said about the log of everything that was done, by oracles too. Hence a grant under a
sequence that is stored already makes fewer writes than the operation that stored it.
-/

namespace DelegatedAccess

variable {η ω : Type}

/-! ### Conditions -/

/-- A grant under a rule sequence. The empty sequence is no condition. -/
structure Condition where
  pair : Pair
  grantee : Entity
  rules : List Rule
  nonempty : rules ≠ []

namespace Condition

/-- The reference to the rule sequence. -/
def ref (c : Condition) : RuleRef :=
  RuleRef.of c.rules

/-- The event that tells that the rule sequence was stored for the grant. -/
def event (c : Condition) : Event :=
  .rulesStored c.grantee c.pair c.ref c.rules.length

/-- The condition of a grant under a rule sequence, if it is one. -/
def of? (p : Pair) (e : Entity) (rules : List Rule) : Option Condition :=
  if h : rules = [] then none else some ⟨p, e, rules, h⟩

/-- A condition whose rule sequence is not known yet. -/
def new? (known : RuleRef → Bool) (c? : Option Condition) : Option Condition :=
  c?.filter fun c => !known c.ref

/-- A condition is new just if its rule sequence is not known. -/
theorem new?_some (known : RuleRef → Bool) (c : Condition) :
  new? known (some c) = if known c.ref then none else some c
  := by
  rw [new?, Option.filter_some]
  cases known c.ref <;> rfl

/-- A condition whose rule sequence is not known is new. -/
theorem new?_ne_none {known : RuleRef → Bool} {c? : Option Condition} {r : RuleRef}
    (href : c?.map ref = some r) (hknown : known r = false) :
  new? known c? ≠ none
  := by
  obtain ⟨c, rfl, rfl⟩ := Option.map_eq_some_iff.mp href
  rw [new?_some, hknown]
  exact Option.some_ne_none c

/-- There is nothing new about a rule sequence that is known. -/
theorem new?_eq_none {known : RuleRef → Bool} {c? : Option Condition}
    (hknown : ∀ r, c?.map ref = some r → known r = true) :
  new? known c? = none
  := by
  cases c? with
  | none => rfl
  | some c =>
      rw [new?_some]
      exact if_pos (hknown c.ref rfl)

end Condition

/-- Whether an event tells that a rule sequence was stored. -/
def Event.storesRules : Event → Bool
  | .rulesStored .. => true
  | _ => false

namespace Operation.Kind

/-- The condition of the grant that an operation makes, if it makes one under a condition. -/
def condition? : Kind → Option Condition
  | .create c => c.grantee.bind fun (e, rules) => Condition.of? c.pair e rules
  | .manage _ p (.grant e rules) => Condition.of? p e rules
  | _ => none

/-- The reference to the rule sequence that an operation grants something under. -/
def ref? (kind : Kind) : Option RuleRef :=
  kind.condition?.map Condition.ref

/-- The number of writes of an operation that no event tells of. -/
def silentWrites : Kind → Nat
  | .bootstrap _ => 1
  | _ => 0

end Operation.Kind

/-! ### What drafts do about rule sequences -/

/-- What a receipt says about a condition, when some rule sequences are known already: it refers to
the sequence, and tells of it if it is new. All writes but some are told of, each by one event. -/
structure Receipt.Reports (known : RuleRef → Bool) (c? : Option Condition) (silent : Nat)
    (receipt : Receipt) : Prop where
  ref : receipt.ref = c?.map Condition.ref
  writes : receipt.writes = receipt.events.length + silent
  announced : receipt.events.filter Event.storesRules =
    (Condition.new? known c?).toList.map Condition.event

/-- The rule sequences of a store with that of a condition, if there is one. -/
def Store.shelve (s : Store) : Option Condition → Table Bytes
  | none => s.rules
  | some c => s.rules.insert c.ref.bytes (Rule.encodeAll c.rules)

/-- What a grant under a rule sequence makes of a store. -/
theorem Draft.install_start (s : Store) (p : Pair) (e : Entity) (rules : List Rule) :
  let c? := Condition.of? p e rules
  let new? := Condition.new? s.containsRules c?
  (Draft.start s).install p e rules =
    { store := { s with
        grants := s.grants.insert (p.grantKey e) (Grant.ofRef (c?.map Condition.ref)).encode
        rules := s.shelve new? }
      receipt := ⟨1 + new?.toList.length, c?.map Condition.ref,
        .permissionSet e p true (c?.map Condition.ref) :: new?.toList.map Condition.event⟩ }
  := by
  rw [Draft.install, Condition.of?]
  by_cases hempty : rules = []
  · rw [if_pos hempty, dif_pos hempty]
    rfl
  · rw [if_neg hempty, dif_neg hempty]
    have hnew := Condition.new?_some s.containsRules ⟨p, e, rules, hempty⟩
    dsimp only
    split
    next hknown =>
      have hstore : (Draft.start s).storeRules rules = Draft.start s := if_pos hknown
      rw [hstore, hnew.trans (if_pos hknown)]
      rfl
    next hknown =>
      have hstore : (Draft.start s).storeRules rules = (Draft.start s).write
          { s with rules := s.rules.insert (RuleRef.of rules).bytes (Rule.encodeAll rules) } :=
        if_neg hknown
      rw [hstore, hnew.trans (if_neg hknown)]
      rfl

/-- A draft that began with a store does what is to be done about a condition: it stores the rule
sequence if it is new, and says so. -/
structure Draft.Shelves (s : Store) (c? : Option Condition) (silent : Nat) (d : Draft) :
    Prop where
  reports : d.receipt.Reports s.containsRules c? silent
  rules : d.store.rules = s.shelve (Condition.new? s.containsRules c?)

namespace Draft.Shelves

variable {s : Store} {c? : Option Condition} {silent : Nat} {d : Draft}

/-- A draft begins with nothing done. -/
theorem start (s : Store) :
  (Draft.start s).Shelves s none 0
  where
  reports := ⟨rfl, rfl, rfl⟩
  rules := rfl

/-- A write that is no rule sequence, and an event that tells of it. -/
theorem announced (h : d.Shelves s c? silent) {t : Store} {event : Event}
    (hrules : t.rules = d.store.rules) (hevent : event.storesRules = false) :
  ((d.write t).emit event).Shelves s c? silent
  where
  reports := by
    constructor
    · exact h.reports.ref
    · change d.receipt.writes + 1 = (d.receipt.events ++ [event]).length + silent
      rw [h.reports.writes, List.length_append, List.length_singleton]
      omega
    · change (d.receipt.events ++ [event]).filter Event.storesRules = _
      rw [List.filter_append, h.reports.announced, List.filter_cons_of_neg (by simp [hevent]),
        List.filter_nil, List.append_nil]
  rules := hrules.trans h.rules

/-- A write that is no rule sequence, and that no event tells of. -/
theorem unannounced (h : d.Shelves s c? silent) {t : Store}
    (hrules : t.rules = d.store.rules) :
  (d.write t).Shelves s c? (silent + 1)
  where
  reports := by
    refine { h.reports with writes := ?_ }
    change d.receipt.writes + 1 = d.receipt.events.length + (silent + 1)
    rw [h.reports.writes]
    omega
  rules := hrules.trans h.rules

/-- A grant is put in, whose rule sequence is there already. -/
theorem setGrant (h : d.Shelves s c? silent) (p : Pair) (e : Entity) (ref : Option RuleRef) :
  (d.setGrant p e ref).Shelves s c? silent
  := by
  apply h.announced
  · rfl
  · rfl

/-- A grant is taken out, if there is one. -/
theorem clearGrant (h : d.Shelves s c? silent) (p : Pair) (e : Entity) :
  (d.clearGrant p e).Shelves s c? silent
  := by
  rw [Draft.clearGrant]
  split
  · apply h.announced
    · rfl
    · rfl
  · exact h

/-- A manager is put in. -/
theorem setManager (h : d.Shelves s c? silent) (p : Pair) (m : Entity) :
  (d.setManager p m).Shelves s c? silent
  := by
  apply h.announced
  · rfl
  · rfl

/-- A manager is taken out. -/
theorem clearManager (h : d.Shelves s c? silent) (p : Pair) :
  (d.clearManager p).Shelves s c? silent
  := by
  apply h.announced
  · rfl
  · rfl

/-- A grant under a rule sequence stores the sequence if it is new. -/
theorem install (s : Store) (p : Pair) (e : Entity) (rules : List Rule) :
  ((Draft.start s).install p e rules).Shelves s (Condition.of? p e rules) 0
  := by
  rw [Draft.install_start]
  constructor
  · constructor
    · rfl
    · rw [List.length_cons, List.length_map, Nat.add_comm]
    · rw [List.filter_cons_of_neg Bool.false_ne_true, List.filter_map]
      congr 1
      apply List.filter_eq_self.mpr
      intro c hc
      rfl
  · rfl

end Draft.Shelves

/-! ### What operations do about rule sequences -/

/-- What the receipt of an operation says, when some rule sequences are known already. -/
structure Receipt.IsFor (kind : Operation.Kind) (known : RuleRef → Bool) (receipt : Receipt) :
    Prop extends receipt.Reports known kind.condition? kind.silentWrites where
  /-- A new rule sequence is one write, and the grant under it is another. -/
  first : Condition.new? known kind.condition? ≠ none → 2 ≤ receipt.writes
  /-- A grant that stores nothing else is one write. -/
  again : ∀ caller p e rules, kind = .manage caller p (.grant e rules) →
    Condition.new? known kind.condition? = none → receipt.writes = 1

/-- The draft of a kind does what is to be done about the condition of the kind. -/
theorem Drafted.shelves {resource : Resource} {s : Store} {kind : Operation.Kind} {d : Draft}
    (h : Drafted resource s kind d) :
  d.Shelves s kind.condition? kind.silentWrites
  := by
  have hstart := Draft.Shelves.start s
  cases h with
  | bootstrap root now hfrozen hinitialized =>
      have hmanaged := (hstart.setGrant (Transaction.creationPair resource) root none).setManager
        (Transaction.creationPair resource) root
      apply (hmanaged.unannounced _).announced
      · rfl
      · rfl
      · rfl
  | freeze hfrozen hinitialized =>
      apply hstart.announced
      · rfl
      · rfl
  | refreeze hfrozen => exact hstart
  | create c hinitialized hcaller hfree =>
      rw [Creation.draft, Operation.Kind.condition?]
      apply Draft.Shelves.setManager
      cases c.grantee with
      | none => exact hstart
      | some g => apply Draft.Shelves.install
  | manage caller p task hinitialized hcaller hmanager =>
      cases task with
      | grant e rules => apply Draft.Shelves.install
      | revoke e => apply hstart.clearGrant
      | setManager m => apply hstart.setManager
      | removeManager => apply hstart.clearManager
      | burnManager => apply hstart.setManager

/-- The draft of a kind has the receipt of an operation of the kind. -/
theorem Drafted.isFor {resource : Resource} {s : Store} {kind : Operation.Kind} {d : Draft}
    (h : Drafted resource s kind d) :
  d.receipt.IsFor kind s.containsRules
  := by
  refine { h.shelves.reports with first := ?_, again := ?_ }
  · intro hnew
    cases h with
    | bootstrap root now hfrozen hinitialized => exact absurd rfl hnew
    | freeze hfrozen hinitialized => exact absurd rfl hnew
    | refreeze hfrozen => exact absurd rfl hnew
    | create c hinitialized hcaller hfree =>
        obtain ⟨caller, p, grantee, m⟩ := c
        cases grantee with
        | none => exact absurd rfl hnew
        | some g =>
            change 2 ≤ ((Draft.start s).install p g.1 g.2).receipt.writes + 1
            rw [Draft.install_start]
            dsimp only
            omega
    | manage caller p task hinitialized hcaller hmanager =>
        cases task with
        | grant e rules =>
            obtain ⟨c, hc⟩ := Option.ne_none_iff_exists'.mp hnew
            have hc : Condition.new? s.containsRules (Condition.of? p e rules) = some c := hc
            rw [Task.draft, Draft.install_start, hc]
            rfl
        | revoke e => exact absurd rfl hnew
        | setManager m => exact absurd rfl hnew
        | removeManager => exact absurd rfl hnew
        | burnManager => exact absurd rfl hnew
  · rintro caller p e rules rfl hnone
    have hnone : Condition.new? s.containsRules (Condition.of? p e rules) = none := hnone
    cases h with
    | manage _ _ _ hinitialized hcaller hmanager =>
        rw [Task.draft, Draft.install_start, hnone]
        rfl

/-! ### Deeds that refer to rule sequences -/

namespace Deed

/-- The operation that was done, if a deed is one. -/
def operation? : Deed η → Option Operation
  | .done (.operation op) _ => some op
  | _ => none

/-- The reference to the rule sequence that a deed grants something under. -/
def ref? (d : Deed η) : Option RuleRef :=
  d.operation?.bind fun op => op.kind.ref?

/-- Whether any of some deeds refers to a rule sequence. -/
def anyRefers (deeds : List (Deed η)) (r : RuleRef) : Bool :=
  deeds.any fun d => d.ref? = some r

/-- One more deed may refer to a rule sequence. -/
theorem anyRefers_concat (deeds : List (Deed η)) (d : Deed η) (r : RuleRef) :
  anyRefers (deeds ++ [d]) r = (anyRefers deeds r || decide (d.ref? = some r))
  := by
  rw [anyRefers, List.any_append, List.any_cons, List.any_nil, Bool.or_false, anyRefers]

end Deed

/-- The rule sequences with that of a condition are those there were, and that of the condition. -/
theorem Store.contains_shelve (s : Store) (c? : Option Condition) (r : RuleRef) :
  (s.shelve (Condition.new? s.containsRules c?)).contains r.bytes =
    (s.containsRules r || decide (c?.map Condition.ref = some r))
  := by
  cases c? with
  | none => simp [Condition.new?, Store.shelve, Store.containsRules]
  | some c =>
      rw [Condition.new?_some]
      by_cases hr : c.ref = r
      · subst hr
        split
        next hknown => simpa [Store.shelve, Store.containsRules] using hknown
        next => simp [Store.shelve, Table.contains, Table.get?_insert]
      · have hbytes : r.bytes ≠ c.ref.bytes := fun h => hr (RuleRef.bytes_injective h).symm
        have hsame : (s.shelve (if s.containsRules c.ref then none else some c)).get? r.bytes =
            s.rules.get? r.bytes := by
          split
          · rfl
          · rw [Store.shelve, Table.get?_insert, if_neg hbytes]
        rw [Table.contains, hsame]
        simp [hr, Store.containsRules, Table.contains]

/-- The rule sequences after a draft are those before, and that of its condition. -/
theorem Draft.Shelves.containsRules {s : Store} {c? : Option Condition} {silent : Nat} {d : Draft}
    (h : d.Shelves s c? silent) (r : RuleRef) :
  d.store.containsRules r = (s.containsRules r || decide (c?.map Condition.ref = some r))
  := by
  rw [Store.containsRules, h.rules, Store.contains_shelve]

/-- The deeds in a log account for the rule sequences of a store, and each receipt among them for
the rule sequences there were before. -/
structure Shelved (s : Store) (deeds : List (Deed η)) : Prop where
  contains : s.containsRules = Deed.anyRefers deeds
  receipts : ∀ earlier op receipt later,
    deeds = earlier ++ .done (.operation op) (.receipt receipt) :: later →
      receipt.IsFor op.kind (Deed.anyRefers earlier)

namespace Shelved

variable {s t : Store} {deeds : List (Deed η)}

/-- Nothing has been done to the store that holds nothing. -/
theorem empty :
  Shelved Store.empty ([] : List (Deed η))
  where
  contains := rfl
  receipts earlier op receipt later h := by
    have hlength := congrArg List.length h
    simp at hlength

/-- One more deed accounts for the rule sequence that it refers to. -/
theorem concat (h : Shelved s deeds) {d : Deed η}
    (hcontains : ∀ r, t.containsRules r = (s.containsRules r || decide (d.ref? = some r)))
    (hreceipt : ∀ op receipt, d = .done (.operation op) (.receipt receipt) →
      receipt.IsFor op.kind s.containsRules) :
  Shelved t (deeds ++ [d])
  where
  contains := by
    funext r
    rw [hcontains, Deed.anyRefers_concat, h.contains]
  receipts earlier op receipt later hdeeds := by
    rcases List.eq_nil_or_concat' later with rfl | ⟨later, d', rfl⟩
    · obtain ⟨rfl, hd⟩ := List.append_inj' hdeeds rfl
      rw [← h.contains]
      apply hreceipt op receipt (List.singleton_inj.mp hd)
    · rw [← List.cons_append, ← List.append_assoc] at hdeeds
      obtain ⟨hdeeds, _⟩ := List.append_inj' hdeeds rfl
      apply h.receipts earlier op receipt later hdeeds

/-- A deed that is no operation leaves the rule sequences. -/
theorem silent (h : Shelved s deeds) {d : Deed η} (hrules : t.rules = s.rules)
    (hop : d.operation? = none) :
  Shelved t (deeds ++ [d])
  := by
  apply h.concat
  · intro r
    rw [Deed.ref?, hop, Store.containsRules, hrules, Store.containsRules]
    simp
  · rintro op receipt rfl
    contradiction

end Shelved

namespace World

/-- The log of a world accounts for the rule sequences of its store. -/
abbrev IsShelved (w : World η (ω × List (Deed η))) : Prop :=
  Shelved w.current.store w.notes

/-- An act whose oracles keep the log right keeps it right. -/
theorem IsShelved.acted {w v : World η (ω × List (Deed η))} {a : Act η}
    {result : Except AccessError Reply} (hw : w.IsShelved)
    (h : Acted (fun u u' => u.IsShelved → u'.IsShelved) w a result v) :
  (v.log (a.deeds result)).IsShelved
  := by
  cases h with
  | failed e hv =>
      rw [Act.deeds, log_nil]
      exact hv hw
  | @performed op _ d hscreen hv hdrafted =>
      apply (hv hw).concat
      · exact hdrafted.shelves.containsRules
      · intro op' receipt hd
        obtain ⟨ha, hreply⟩ := Deed.done.inj hd
        obtain rfl := Act.operation.inj ha
        obtain rfl := Reply.receipt.inj hreply
        exact hdrafted.isFor
  | answered a hv => exact (hv hw).silent rfl rfl
  | registered e handle => exact hw.silent rfl rfl
  | sinkAdded name => exact hw.silent rfl rfl
  | opened config => exact hw.silent rfl rfl
  | frozen hdrafted => exact hw.silent hdrafted.shelves.rules rfl

/-- The log of a course stays right. -/
theorem Logged.isShelved {w v : World η (ω × List (Deed η))} (h : Logged w v)
    (hw : w.IsShelved) :
  v.IsShelved
  := by
  apply h.keeps _ _ _ hw
  · intro w v a result hw hacted
    exact hw.acted hacted
  · intro w place hw
    exact Shelved.silent hw rfl rfl
  · exact fun w state hw => hw

/-! ### Storing once -/

/-- What is known of a store and of everything that was done since it was empty. -/
structure StoredOnce (s : Store) (deeds : List (Deed η)) : Prop where
  /-- The rule sequences in the store are those that something was granted under. -/
  contains : ∀ r, s.containsRules r = true ↔ ∃ d ∈ deeds, d.ref? = some r
  /-- An operation has stored the rule sequence that it granted under, and told of it, just if
  nothing that was done before referred to the sequence. -/
  receipts : ∀ earlier op receipt later,
    deeds = earlier ++ .done (.operation op) (.receipt receipt) :: later →
      receipt.IsFor op.kind (Deed.anyRefers earlier)
  /-- A grant under a rule sequence made fewer writes than the operation that stored the sequence
  before. -/
  cheaper : ∀ earlier op receipt between caller e p rules receipt' later,
    deeds = earlier ++ .done (.operation op) (.receipt receipt) ::
      (between ++ .done (.operation (.grant caller e p rules)) (.receipt receipt') :: later) →
    op.kind.ref? = some (RuleRef.of rules) → Deed.anyRefers earlier (RuleRef.of rules) = false →
      receipt'.writes < receipt.writes

/-- The log of a world says all this, when it accounts for the rule sequences of the store. -/
theorem storedOnce_of_shelved {s : Store} {deeds : List (Deed η)} (h : Shelved s deeds) :
  StoredOnce s deeds
  where
  contains r := by
    rw [h.contains, Deed.anyRefers, List.any_eq_true]
    simp only [decide_eq_true_eq]
  receipts := h.receipts
  cheaper earlier op receipt between caller e p rules receipt' later hdeeds href hfirst := by
    have htwo : 2 ≤ receipt.writes := by
      apply (h.receipts _ _ _ _ hdeeds).first
      apply Condition.new?_ne_none href hfirst
    rw [← List.cons_append, ← List.append_assoc] at hdeeds
    have hone : receipt'.writes = 1 := by
      apply (h.receipts _ _ _ _ hdeeds).again caller p e rules rfl
      apply Condition.new?_eq_none
      intro r hr
      have hrules : r = RuleRef.of rules := by
        change (Condition.of? p e rules).map Condition.ref = some r at hr
        rw [Condition.of?] at hr
        split at hr
        · contradiction
        · exact (Option.some.inj hr).symm
      rw [hrules, Deed.anyRefers, List.any_eq_true]
      refine ⟨_, List.mem_append_right _ List.mem_cons_self, ?_⟩
      apply decide_eq_true href
    omega

/-- What an operation does with the rule sequences of a store, in a world with a log: nothing if it
fails, and otherwise what its receipt says, after all that was done before. -/
structure ShelvesOnce (behave : Behaviour η (ω × List (Deed η))) (now : UInt64) (op : Operation)
    (w : World η (ω × List (Deed η))) : Prop where
  failed : ∀ e, ((perform behave now op).run.run w).1 = .error e →
    ((perform behave now op).run.run w).2.current.store.rules =
      (consulted behave now op.kind w).current.store.rules
  done : ∀ receipt, ((perform behave now op).run.run w).1 = .ok receipt →
    receipt.IsFor op.kind (Deed.anyRefers (consulted behave now op.kind w).notes) ∧
      ((perform behave now op).run.run w).2.current.store.rules =
        (consulted behave now op.kind w).current.store.shelve
          (Condition.new? (Deed.anyRefers (consulted behave now op.kind w).notes)
            op.kind.condition?)

/-- An operation stores a rule sequence if it is new, when the log accounts for those there are. -/
theorem shelvesOnce_of_shelved {behave : Behaviour η (ω × List (Deed η))} {now : UInt64}
    {op : Operation} {w : World η (ω × List (Deed η))}
    (h : (consulted behave now op.kind w).IsShelved) :
  ShelvesOnce behave now op w
  where
  failed e he := by rw [(isAtomic behave now op w).failed e he]
  done receipt hreceipt := by
    have hconcluded := concluded_perform behave now op w
    rw [hreceipt] at hconcluded
    generalize ((perform behave now op).run.run w).2 = u at hconcluded ⊢
    cases hconcluded with
    | done hscreen hdrafted =>
        rw [← h.contains]
        exact ⟨hdrafted.isFor, hdrafted.shelves.rules⟩

/-- Every course from an empty store can be logged, and whatever was done on the way by acts and by
oracles, the first operation that granted something under a rule sequence is the one that stored it
and told of it. Later operations, for whatever pair and grantee, by whatever caller, leave the
stored rule sequences as they are and tell of nothing. All receipts refer to the rule sequence that
was granted under, and count their writes. -/
theorem rules_stored_once {w₀ : World η ω} (hfresh : w₀.IsFresh) :
  (∀ w, Course w₀ w → ∃ deeds, Logged (w₀.keeping []) (w.keeping deeds)) ∧
    (∀ (w : World η ω) (deeds : List (Deed η)), Logged (w₀.keeping []) (w.keeping deeds) →
      StoredOnce w.current.store deeds) ∧
    ∀ (behave : Behaviour η (ω × List (Deed η))),
      (∀ handle q u, Logged u ((behave handle q).run u).2) →
      ∀ (now : UInt64) (op : Operation) (w : World η (ω × List (Deed η))),
        Logged (w₀.keeping []) w → ShelvesOnce behave now op w
  := by
  have hstart : (w₀.keeping ([] : List (Deed η))).IsShelved := by
    obtain ⟨config, hconfig⟩ := hfresh
    have hempty : w₀.current.store = .empty := Instance.store_start hconfig
    change Shelved w₀.current.store []
    rw [hempty]
    apply Shelved.empty
  refine ⟨?_, ?_, ?_⟩
  · intro w hcourse
    apply hcourse.logged
  · intro w deeds hlogged
    exact storedOnce_of_shelved (hlogged.isShelved hstart)
  · intro behave nested now op w hlogged
    have hconsulted := hlogged.trans (logged_operation nested now op w).1
    exact shelvesOnce_of_shelved (hconsulted.isShelved hstart)

/-! ### An example -/

/-- A rule sequence that holds always. -/
def regrantedRules : List Rule :=
  [.always]

/-- A world with a log, in which a pair was created under a rule sequence, the grant was revoked,
and the store was opened again before another entity was granted the pair under the sequence. -/
def regrantingWorld : World Unit (Unit × List (Deed Unit)) :=
  actAllLogged agreeable 0
    [.operation (.bootstrap ⟨5⟩), .operation (.create ⟨5⟩ ⟨6⟩ examplePair ⟨5⟩ regrantedRules),
      .operation (.revoke ⟨5⟩ ⟨6⟩ examplePair), .reopen {} false,
      .operation (.grant ⟨5⟩ ⟨7⟩ examplePair regrantedRules)]
    ((blank : World Unit Unit).keeping [])

/-- A grant to one more entity under the sequence. -/
def lastGrant : Operation :=
  .grant ⟨5⟩ ⟨8⟩ examplePair regrantedRules

/-- The sequence was stored by the creation and is not stored again, though nobody was granted
anything under it any more when the store was opened again. One more grant is one write. -/
theorem rules_stored_once_regranted :
  (blank : World Unit Unit).IsFresh ∧
    regrantingWorld.notes.map Deed.ref? =
      [none, some (RuleRef.of regrantedRules), none, none, some (RuleRef.of regrantedRules)] ∧
    (regrantingWorld.notes.flatMap Deed.events).filter Event.storesRules =
      [.rulesStored ⟨6⟩ examplePair (RuleRef.of regrantedRules) 1] ∧
    StoredOnce regrantingWorld.current.store regrantingWorld.notes ∧
    ((perform agreeable 0 lastGrant).run.run regrantingWorld).1 =
      .ok ⟨1, some (RuleRef.of regrantedRules),
        [.permissionSet ⟨8⟩ examplePair true (some (RuleRef.of regrantedRules))]⟩ ∧
    ShelvesOnce agreeable 0 lastGrant regrantingWorld
  := by
  have hfresh := isFresh_blank (η := Unit)
  have hlogged : Logged ((blank : World Unit Unit).keeping [])
      regrantingWorld := Logged.all logged_agreeable 0 _ (Logged.refl _)
  have hstored : StoredOnce regrantingWorld.current.store regrantingWorld.notes := by
    apply (rules_stored_once hfresh).2.1 regrantingWorld.forget
    rw [keeping_forget]
    exact hlogged
  have hshelves := (rules_stored_once hfresh).2.2 agreeable logged_agreeable 0 lastGrant
    regrantingWorld hlogged
  obtain ⟨hrefs, hevents, hgrant⟩ :
      regrantingWorld.notes.map Deed.ref? =
          [none, some (RuleRef.of regrantedRules), none, none,
            some (RuleRef.of regrantedRules)] ∧
        (regrantingWorld.notes.flatMap Deed.events).filter Event.storesRules =
          [.rulesStored ⟨6⟩ examplePair (RuleRef.of regrantedRules) 1] ∧
        ((perform agreeable 0 lastGrant).run.run regrantingWorld).1 =
          .ok ⟨1, some (RuleRef.of regrantedRules),
            [.permissionSet ⟨8⟩ examplePair true (some (RuleRef.of regrantedRules))]⟩ := by
    decide +kernel
  exact ⟨hfresh, hrefs, hevents, hstored, hgrant, hshelves⟩

end World

end DelegatedAccess
