import DelegatedAccess.Proofs.Burning
import DelegatedAccess.Proofs.Deduplication
import DelegatedAccess.Proofs.Reservation
import DelegatedAccess.Proofs.Verdict

/-!
# Operations on different pairs commute

An operation on a pair edits what the store holds about the pair: a grant, a manager, or both. The
rule sequence of a grant goes to a place that is shared by all pairs, where it is stored unless it
is there already. So the second of two grants under the same sequence makes fewer writes than the
first, whichever is the second.

The main result of this module is that operations on different pairs, neither of which is the pair
of the creation capability, come to the same in both orders: each is refused or not as in the other
order, the stores that they leave are equal, and so are the numbers of writes taken together.
-/

namespace DelegatedAccess

variable {η ω : Type}

/-! ### Tables -/

namespace Table

variable {α : Type}

/-- The table with a value under a key, or with nothing there. -/
def set (t : Table α) (k : Bytes) : Option α → Table α
  | none => t.erase k
  | some v => t.insert k v

/-- What is found under a key is what was set there last. -/
theorem get?_set (t : Table α) (k : Bytes) (v? : Option α) (k' : Bytes) :
  (t.set k v?).get? k' = if k' = k then v? else t.get? k'
  := by
  cases v? with
  | none => apply get?_erase
  | some v => apply get?_insert

/-- It does not matter which of two keys is set first. -/
theorem set_comm (t : Table α) {k k' : Bytes} (h : k ≠ k') (v? v'? : Option α) :
  (t.set k v?).set k' v'? = (t.set k' v'?).set k v?
  := by
  apply ext_get?
  intro j
  rw [get?_set, get?_set, get?_set, get?_set]
  by_cases hj : j = k'
  · subst hj
    rw [if_pos rfl, if_neg h.symm, if_pos rfl]
  · rw [if_neg hj, if_neg hj]

/-- The entries with a prefix do not depend on what is set under other keys. -/
theorem withPrefix_set (t : Table α) {p k : Bytes} (v? : Option α) (h : p.isPrefixOf k = false) :
  (t.set k v?).withPrefix p = t.withPrefix p
  := by
  cases v? with
  | none => apply t.withPrefix_erase h
  | some v => apply t.withPrefix_insert v h

end Table

/-! ### Shared rule sequences -/

namespace Condition

/-- What a condition has stored under a key, if nothing was there. -/
def stored? (c? : Option Condition) (k : Bytes) : Option Bytes :=
  c?.bind fun c => if k = c.ref.bytes then some (Rule.encodeAll c.rules) else none

/-- A condition has its rule sequence stored under its reference. -/
theorem stored?_some (c : Condition) (k : Bytes) :
  stored? (some c) k = if k = c.ref.bytes then some (Rule.encodeAll c.rules) else none
  := rfl

/-- What is found under a key after the rule sequence of a condition was stored unless it was
there. -/
theorem get?_shelve_new? (s : Store) (c? : Option Condition) (k : Bytes) :
  (s.shelve (new? s.containsRules c?)).get? k = (s.rules.get? k).or (stored? c? k)
  := by
  cases c? with
  | none =>
      rw [stored?, Option.bind_none, Option.or_none]
      rfl
  | some c =>
      rw [new?_some, stored?_some]
      split
      next hknown =>
        obtain ⟨v, hv⟩ := Option.isSome_iff_exists.mp hknown
        split
        next hk => rw [Store.shelve, hk, hv, Option.some_or]
        next => rw [Store.shelve, Option.or_none]
      next hknown =>
        have hnone : s.rules.get? c.ref.bytes = none := Option.not_isSome_iff_eq_none.mp hknown
        rw [Store.shelve, Table.get?_insert]
        split
        next hk => rw [hk, hnone, Option.none_or]
        next => rw [Option.or_none]

/-- Two conditions do not have different things stored under the same key, when different rule
sequences have different references. -/
theorem stored?_or_comm {c₁? c₂? : Option Condition}
    (h : ∀ c₁ c₂, c₁? = some c₁ → c₂? = some c₂ → c₁.rules ≠ c₂.rules → c₁.ref ≠ c₂.ref)
    (k : Bytes) :
  (stored? c₁? k).or (stored? c₂? k) = (stored? c₂? k).or (stored? c₁? k)
  := by
  cases h₁ : stored? c₁? k with
  | none => rw [Option.none_or, Option.or_none]
  | some v₁ =>
      cases h₂ : stored? c₂? k with
      | none => rfl
      | some v₂ =>
          obtain ⟨c₁, hc₁, hv₁⟩ := Option.bind_eq_some_iff.mp h₁
          obtain ⟨c₂, hc₂, hv₂⟩ := Option.bind_eq_some_iff.mp h₂
          obtain ⟨hk₁, hv₁⟩ := Option.ite_none_right_eq_some.mp hv₁
          obtain ⟨hk₂, hv₂⟩ := Option.ite_none_right_eq_some.mp hv₂
          have href : c₁.ref = c₂.ref := RuleRef.bytes_injective (hk₁.symm.trans hk₂)
          have hrules : c₁.rules = c₂.rules := by
            by_contra hne
            exact h c₁ c₂ hc₁ hc₂ hne href
          rw [Option.some_or, Option.some_or, ← Option.some.inj hv₁, ← Option.some.inj hv₂, hrules]

/-- How many rule sequences are stored for a condition when some are known already. -/
def cost (known : RuleRef → Bool) (c? : Option Condition) : Nat :=
  (new? known c?).toList.length

/-- The references that are known once the rule sequence of a condition is stored. -/
def learn (known : RuleRef → Bool) (c? : Option Condition) : RuleRef → Bool :=
  fun r => known r || decide (c?.map ref = some r)

/-- A rule sequence is stored for a condition unless it is known. -/
theorem cost_some (known : RuleRef → Bool) (c : Condition) :
  cost known (some c) = if known c.ref then 0 else 1
  := by
  rw [cost, new?_some]
  split <;> rfl

/-- Two conditions have the same number of rule sequences stored in either order. -/
theorem cost_comm (known : RuleRef → Bool) (c₁? c₂? : Option Condition) :
  cost known c₁? + cost (learn known c₁?) c₂? = cost known c₂? + cost (learn known c₂?) c₁?
  := by
  cases c₁? with
  | none =>
      have hlearn : learn known none = known := by
        funext r
        simp [learn]
      rw [hlearn, Nat.add_comm]
      rfl
  | some c₁ =>
      cases c₂? with
      | none =>
          have hlearn : learn known none = known := by
            funext r
            simp [learn]
          rw [hlearn, Nat.add_comm]
          rfl
      | some c₂ =>
          have hother : ∀ c c' : Condition, c.ref ≠ c'.ref →
              cost (learn known (some c)) (some c') = cost known (some c') := by
            intro c c' hne
            simp [cost_some, learn, hne]
          by_cases href : c₁.ref = c₂.ref
          · have hcost : ∀ known, cost known (some c₁) = cost known (some c₂) := by
              intro known
              rw [cost_some, cost_some, href]
            have hlearn : learn known (some c₁) = learn known (some c₂) := by
              funext r
              simp [learn, href]
            rw [hcost, hcost, hlearn]
          · rw [hother c₁ c₂ href, hother c₂ c₁ (Ne.symm href), Nat.add_comm]

end Condition

/-! ### Edits -/

/-- What an operation on a pair does to a store. -/
structure Edit where
  pair : Pair
  /-- The entity whose grant becomes another, or is taken out. -/
  grant? : Option (Entity × Option Grant)
  /-- The manager that is put in, or that there is none from now on. -/
  manager? : Option (Option Entity)
  /-- The condition whose rule sequence is stored unless it is there. -/
  condition? : Option Condition

namespace Edit

/-- What an edit makes of the grants. -/
def grants (x : Edit) (t : Table Bytes) : Table Bytes :=
  match x.grant? with
  | none => t
  | some (e, g?) => t.set (x.pair.grantKey e) (g?.map Grant.encode)

/-- What an edit makes of the managers. -/
def managers (x : Edit) (t : Table Bytes) : Table Bytes :=
  match x.manager? with
  | none => t
  | some m? => t.set x.pair.key (m?.map Entity.bytes)

/-- How many grants an edit puts in or takes out. A grant that is not there is not taken out. -/
def grantWrites (x : Edit) (t : Table Bytes) : Nat :=
  match x.grant? with
  | none => 0
  | some (_, some _) => 1
  | some (e, none) => if t.contains (x.pair.grantKey e) then 1 else 0

/-- How many values an edit puts in or takes out of a store. -/
def writes (x : Edit) (s : Store) : Nat :=
  x.grantWrites s.grants + x.manager?.toList.length + Condition.cost s.containsRules x.condition?

end Edit

namespace Store

/-- The store after an edit. -/
def edit (s : Store) (x : Edit) : Store :=
  { s with
    grants := x.grants s.grants
    managers := x.managers s.managers
    rules := s.shelve (Condition.new? s.containsRules x.condition?) }

variable {s : Store} {x y : Edit}

/-- The rule sequences after an edit are those before, and that of its condition. -/
theorem containsRules_edit (s : Store) (x : Edit) :
  (s.edit x).containsRules = Condition.learn s.containsRules x.condition?
  := by
  funext r
  apply contains_shelve

/-- An edit keeps the rule sequences there are. -/
theorem keepsRules_edit (s : Store) (x : Edit) :
  s.KeepsRules (s.edit x)
  := by
  intro k v h
  change (s.shelve _).get? k = some v
  rw [Condition.get?_shelve_new?, h, Option.some_or]

/-- An edit for one pair leaves the part of another. -/
theorem part_edit_of_ne {q : Pair} (h : q ≠ x.pair) :
  (s.edit x).part q = s.part q
  := by
  have hmanagers : (x.managers s.managers).get? q.key = s.managers.get? q.key := by
    rw [Edit.managers]
    split
    · rfl
    · rw [Table.get?_set, if_neg fun hkey => h (Pair.key_injective hkey)]
  have hgrants : (x.grants s.grants).withPrefix q.key = s.grants.withPrefix q.key := by
    rw [Edit.grants]
    split
    · rfl
    · rw [Table.withPrefix_set _ _ (isPrefixOf_grantKey_of_ne h _)]
  rw [part, part]
  exact Prod.ext hmanagers hgrants

/-- An edit leaves what is known about the instance. -/
theorem isInitialized_edit (s : Store) (x : Edit) :
  (s.edit x).isInitialized = s.isInitialized
  := rfl

/-- Edits for different pairs can be made in either order, when different rule sequences have
different references. -/
theorem edit_comm (hpair : x.pair ≠ y.pair)
    (hrules : ∀ c₁ c₂, x.condition? = some c₁ → y.condition? = some c₂ → c₁.rules ≠ c₂.rules →
      c₁.ref ≠ c₂.ref) :
  (s.edit x).edit y = (s.edit y).edit x
  := by
  have hgrants : y.grants (x.grants s.grants) = x.grants (y.grants s.grants) := by
    simp only [Edit.grants]
    cases x.grant? with
    | none => rfl
    | some g =>
        cases y.grant? with
        | none => rfl
        | some g' =>
            apply Table.set_comm
            exact fun hkey => hpair (Pair.grantKey_injective hkey).1
  have hmanagers : y.managers (x.managers s.managers) = x.managers (y.managers s.managers) := by
    simp only [Edit.managers]
    cases x.manager? with
    | none => rfl
    | some m =>
        cases y.manager? with
        | none => rfl
        | some m' =>
            apply Table.set_comm
            exact fun hkey => hpair (Pair.key_injective hkey)
  have hshelves : ((s.edit x).edit y).rules = ((s.edit y).edit x).rules := by
    apply Table.ext_get?
    intro k
    change ((s.edit x).shelve _).get? k = ((s.edit y).shelve _).get? k
    rw [Condition.get?_shelve_new?, Condition.get?_shelve_new?]
    change ((s.shelve _).get? k).or _ = ((s.shelve _).get? k).or _
    rw [Condition.get?_shelve_new?, Condition.get?_shelve_new?, Option.or_assoc, Option.or_assoc,
      Condition.stored?_or_comm hrules]
  change Store.mk (y.grants (x.grants s.grants)) (y.managers (x.managers s.managers))
    ((s.edit x).edit y).rules s.about = _
  rw [hgrants, hmanagers, hshelves]
  rfl

end Store

/-! ### The edits of operations -/

/-- What a task does to a store. -/
def Task.edit (p : Pair) : Task → Edit
  | grant e rules => ⟨p, some (e, some (Grant.under rules)), none, Condition.of? p e rules⟩
  | revoke e => ⟨p, some (e, none), none, none⟩
  | setManager m => ⟨p, none, some (some m), none⟩
  | removeManager => ⟨p, none, some none, none⟩
  | burnManager => ⟨p, none, some (some .burn), none⟩

/-- What a creation does to a store. -/
def Creation.edit (c : Creation) : Edit where
  pair := c.pair
  grant? := c.grantee.map fun (e, rules) => (e, some (Grant.under rules))
  manager? := some (some c.manager)
  condition? := c.grantee.bind fun (e, rules) => Condition.of? c.pair e rules

/-- What an operation on a pair does to a store. -/
def Operation.Kind.edit? : Operation.Kind → Option Edit
  | .create c => some c.edit
  | .manage _ p task => some (task.edit p)
  | _ => none

/-- A caller asks for an edit of the pair, under the condition of the operation. -/
theorem Operation.Kind.edit?_of_demand? {kind : Operation.Kind} {caller : Entity} {action : Action}
    {p : Pair} (h : kind.demand? = some (caller, action, p)) :
  ∃ x, kind.edit? = some x ∧ x.pair = p ∧ x.condition? = kind.condition?
  := by
  cases kind with
  | bootstrap root => contradiction
  | freeze => contradiction
  | create c =>
      obtain ⟨_, _, rfl⟩ := h
      exact ⟨c.edit, rfl, rfl, rfl⟩
  | manage caller' q task =>
      obtain ⟨_, _, rfl⟩ := h
      refine ⟨task.edit _, rfl, ?_⟩
      cases task <;> exact ⟨rfl, rfl⟩

/-- A draft makes an edit of a store, in as many writes as the edit takes. -/
structure Draft.Makes (d : Draft) (x : Edit) (s : Store) : Prop where
  store : d.store = s.edit x
  writes : d.receipt.writes = x.writes s

/-- The grant under a rule sequence refers to it unless it is empty. -/
theorem Grant.ofRef_of? (p : Pair) (e : Entity) (rules : List Rule) :
  Grant.ofRef ((Condition.of? p e rules).map Condition.ref) = Grant.under rules
  := by
  rw [Condition.of?, under]
  split <;> rfl

/-- A grant under a rule sequence is put in, and the sequence stored unless it is there. -/
theorem Draft.makes_install (s : Store) (p : Pair) (e : Entity) (rules : List Rule) :
  ((Draft.start s).install p e rules).Makes
    ⟨p, some (e, some (Grant.under rules)), none, Condition.of? p e rules⟩ s
  := by
  rw [install_start, Grant.ofRef_of?]
  exact ⟨rfl, rfl⟩

/-- A manager is put in after an edit that leaves the manager. -/
theorem Draft.Makes.setManager {d : Draft} {x : Edit} {s : Store} (h : d.Makes x s)
    (hx : x.manager? = none) (m : Entity) :
  (d.setManager x.pair m).Makes { x with manager? := some (some m) } s
  where
  store := by
    obtain ⟨p, g?, m?, c?⟩ := x
    obtain rfl : m? = none := hx
    rw [Draft.store_setManager, h.store]
    rfl
  writes := by
    change d.receipt.writes + 1 = _
    rw [h.writes, Edit.writes, Edit.writes, hx]
    simp only [Edit.grantWrites, Option.toList_none, Option.toList_some, List.length_nil,
      List.length_singleton]
    omega

/-- Nothing has been done to a store. -/
theorem Draft.makes_start (s : Store) (p : Pair) :
  (Draft.start s).Makes ⟨p, none, none, none⟩ s
  := ⟨rfl, rfl⟩

/-- A grant is taken out, if there is one. -/
theorem Draft.makes_clearGrant (s : Store) (p : Pair) (e : Entity) :
  ((Draft.start s).clearGrant p e).Makes ⟨p, some (e, none), none, none⟩ s
  where
  store := by
    rw [Draft.store_clearGrant]
    rfl
  writes := by
    change _ = (if s.grants.contains (p.grantKey e) then 1 else 0)
    rw [clearGrant]
    change (if s.grants.contains (p.grantKey e) then _ else _ : Draft).receipt.writes = _
    split <;> rfl

/-- The draft of an operation makes the edit of the operation. -/
theorem Operation.Kind.makes_draft {kind : Operation.Kind} {x : Edit} (h : kind.edit? = some x)
    (resource : Resource) (now : UInt64) (s : Store) :
  (kind.draft resource now s).Makes x s
  := by
  cases kind with
  | bootstrap root => contradiction
  | freeze => contradiction
  | create c =>
      obtain rfl := Option.some.inj h
      obtain ⟨caller, p, grantee, m⟩ := c
      cases grantee with
      | none => exact (Draft.makes_start s p).setManager rfl m
      | some g => exact (Draft.makes_install s p g.1 g.2).setManager rfl m
  | manage caller p task =>
      obtain rfl := Option.some.inj h
      cases task with
      | grant e rules => apply Draft.makes_install
      | revoke e => apply Draft.makes_clearGrant
      | setManager m => exact (Draft.makes_start s p).setManager rfl m
      | removeManager => exact ⟨rfl, rfl⟩
      | burnManager => exact (Draft.makes_start s p).setManager rfl .burn

/-- Edits of different pairs take the same number of writes in either order. -/
theorem Edit.writes_comm {x y : Edit} (hpair : x.pair ≠ y.pair) (s : Store) :
  x.writes s + y.writes (s.edit x) = y.writes s + x.writes (s.edit y)
  := by
  have hgrants : ∀ x y : Edit, x.pair ≠ y.pair →
      y.grantWrites (x.grants s.grants) = y.grantWrites s.grants := by
    intro x y hne
    rw [grantWrites]
    split
    next hy => rw [grantWrites, hy]
    next hy => rw [grantWrites, hy]
    next e hy =>
      rw [grantWrites, hy, Edit.grants]
      cases x.grant? with
      | none => rfl
      | some g =>
          have hkey : y.pair.grantKey e ≠ x.pair.grantKey g.1 :=
            fun hkey => hne (Pair.grantKey_injective hkey).1.symm
          dsimp only
          rw [Table.contains, Table.get?_set, if_neg hkey, Table.contains]
  have hcost := Condition.cost_comm s.containsRules x.condition? y.condition?
  rw [writes, writes, writes, writes, Store.containsRules_edit, Store.containsRules_edit]
  change _ + (y.grantWrites (x.grants s.grants) + _ + _) =
    _ + (x.grantWrites (y.grants s.grants) + _ + _)
  rw [hgrants x y hpair, hgrants y x hpair.symm]
  omega

/-! ### Refusals -/

/-- What stands in the way of an operation depends on the manager of its pair, besides the
decision on its request. -/
theorem Operation.Kind.obstacle?_eq {kind : Operation.Kind} {x : Edit} (h : kind.edit? = some x)
    {s t : Store} (hinitialized : t.isInitialized = s.isInitialized)
    (hmanager : t.manager? x.pair = s.manager? x.pair) (decision : Decision) :
  kind.obstacle? t decision = kind.obstacle? s decision
  := by
  cases kind with
  | bootstrap root => contradiction
  | freeze => contradiction
  | create c =>
      obtain rfl := Option.some.inj h
      have hmanager : t.manager? c.pair = s.manager? c.pair := hmanager
      rw [obstacle?, obstacle?, hinitialized, hmanager]
  | manage caller p task =>
      obtain rfl := Option.some.inj h
      have hmanager : t.manager? p = s.manager? p := by cases task <;> exact hmanager
      rw [obstacle?, obstacle?, hinitialized, hmanager]

namespace World

/-- Why an operation is refused in a world, if it is. -/
def refusal? (behave : Behaviour η ω) (now : UInt64) (op : Operation) (w : World η ω) :
    Option AccessError :=
  op.kind.refusal? w.current ((consult behave now op.kind).run w).1

/-- The world after an operation. -/
def after (behave : Behaviour η ω) (now : UInt64) (op : Operation) (w : World η ω) : World η ω :=
  ((perform behave now op).run.run w).2

/-- Whether an operation is performed in a world, or which error it fails with. -/
def outcome (behave : Behaviour η ω) (now : UInt64) (op : Operation) (w : World η ω) :
    Except AccessError Unit :=
  ((perform behave now op).run.run w).1.map fun _ => ()

/-- How many writes an operation makes in a world. One that fails makes none. -/
def writes (behave : Behaviour η ω) (now : UInt64) (op : Operation) (w : World η ω) : Nat :=
  match ((perform behave now op).run.run w).1 with
  | .error _ => 0
  | .ok receipt => receipt.writes

/-- An operation comes to an edit in a world, or to nothing if it is refused. -/
structure ComesToEdit (behave : Behaviour η ω) (now : UInt64) (op : Operation) (x : Edit)
    (w : World η ω) : Prop where
  outcome : outcome behave now op w = refuse (refusal? behave now op w)
  store : (after behave now op w).current.store =
    if refusal? behave now op w = none then w.current.store.edit x else w.current.store
  writes : writes behave now op w =
    if refusal? behave now op w = none then x.writes w.current.store else 0
  config : (after behave now op w).current.config = w.current.config
  oracles : (after behave now op w).current.oracles = w.current.oracles

variable {behave : Behaviour η ω} {w v : World η ω} {op : Operation} {x y : Edit}

/-- An operation on a pair comes to its edit. -/
theorem comesToEdit (hs : w.current.store.Sound) (hinert : behave.IsInert) (now : UInt64)
    (hop : op.kind.edit? = some x) :
  ComesToEdit behave now op x w
  := by
  have hcurrent := hinert.current_consulted now op.kind w
  have hverdict := perform_verdict hs hinert now op
  have hmakes := Operation.Kind.makes_draft hop w.current.config.resource now w.current.store
  have hreason : op.kind.refusal? w.current ((consult behave now op.kind).run w).1 =
      refusal? behave now op w := rfl
  rw [hreason] at hverdict
  cases hrefusal : refusal? behave now op w with
  | some e =>
      rw [hrefusal] at hverdict
      constructor
      · rw [World.outcome, hverdict, hrefusal]
        rfl
      · rw [after, hverdict, hrefusal, if_neg (Option.some_ne_none e)]
        exact congrArg Instance.store hcurrent
      · rw [World.writes, hverdict, hrefusal, if_neg (Option.some_ne_none e)]
      · rw [after, hverdict]
        exact congrArg Instance.config hcurrent
      · rw [after, hverdict]
        exact congrArg Instance.oracles hcurrent
  | none =>
      rw [hrefusal] at hverdict
      constructor
      · rw [World.outcome, hverdict, hrefusal]
        rfl
      · rw [after, hverdict, hrefusal, if_pos rfl]
        exact hmakes.store
      · rw [World.writes, hverdict, hrefusal, if_pos rfl]
        exact hmakes.writes
      · rw [after, hverdict]
        dsimp only
        rw [config_settle, hcurrent]
      · rw [after, hverdict]
        dsimp only
        rw [oracles_settle, hcurrent]

/-- The decision on a request stays when the grants of its pair and the rule sequences do, as long
as the oracles answer by their arguments. -/
theorem decide_eq_of_answers {answers : η → Question → Bool}
    (hanswers : ∀ handle q u, ((behave handle q).run u).1 = answers handle q)
    (hs : w.current.store.Sound) (hkeeps : w.current.store.KeepsRules v.current.store)
    (hconfig : v.current.config = w.current.config)
    (horacles : v.current.oracles = w.current.oracles) {req : Request}
    (hpart : v.current.store.part req.question.pair = w.current.store.part req.question.pair) :
  ((decide behave req).run v).1 = ((decide behave req).run w).1
  := by
  have halike : behave.Alike (fun _ _ => True) behave := by
    intro handle q u u' _
    exact ⟨(hanswers handle q u).trans (hanswers handle q u').symm, trivial⟩
  have hpanel : panel behave v.current = panel behave w.current := by
    funext e
    rw [panel, panel, Instance.oracle?, Instance.oracle?, horacles]
  symm
  apply decide_eq (R := fun _ _ => True) trivial _ (congrArg Config.maxDepth hconfig.symm) hpart
  · intro e g hg
    apply Store.gate_eq_of_keepsRules hs hkeeps hg
  · rw [hpanel]
    exact halike.panel w.current

/-- What an operation on another pair leaves for the one on its own pair. -/
structure LeavesAlone (p : Pair) (w v : World η ω) : Prop where
  config : v.current.config = w.current.config
  oracles : v.current.oracles = w.current.oracles
  initialized : v.current.store.isInitialized = w.current.store.isInitialized
  part : v.current.store.part p = w.current.store.part p
  capability : v.current.store.part w.current.creationPair =
    w.current.store.part w.current.creationPair
  keepsRules : w.current.store.KeepsRules v.current.store

/-- An operation on a pair leaves every other alone, if it is not on that of the creation
capability. -/
theorem ComesToEdit.leavesAlone {now : UInt64} (h : ComesToEdit behave now op x w) {p : Pair}
    (hp : p ≠ x.pair) (hcapability : w.current.creationPair ≠ x.pair) :
  LeavesAlone p w (after behave now op w)
  := by
  have hstore := h.store
  by_cases hnone : refusal? behave now op w = none
  · rw [if_pos hnone] at hstore
    constructor
    · exact h.config
    · exact h.oracles
    · rw [hstore, Store.isInitialized_edit]
    · rw [hstore, Store.part_edit_of_ne hp]
    · rw [hstore, Store.part_edit_of_ne hcapability]
    · rw [hstore]
      apply Store.keepsRules_edit
  · rw [if_neg hnone] at hstore
    constructor
    · exact h.config
    · exact h.oracles
    · rw [hstore]
    · rw [hstore]
    · rw [hstore]
    · rw [hstore]
      apply Store.KeepsRules.refl

/-- An operation is refused in two worlds alike when its pair is left alone between them. -/
theorem LeavesAlone.refusal?_eq (h : LeavesAlone x.pair w v) (hs : w.current.store.Sound)
    {answers : η → Question → Bool}
    (hanswers : ∀ handle q u, ((behave handle q).run u).1 = answers handle q)
    (hop : op.kind.edit? = some x) (now : UInt64) :
  refusal? behave now op v = refusal? behave now op w
  := by
  have hdecision : ((consult behave now op.kind).run v).1 =
      ((consult behave now op.kind).run w).1 := by
    cases op.kind with
    | bootstrap root => rfl
    | freeze => rfl
    | manage caller p task => rfl
    | create c =>
        rw [consult_create, consult_create, h.config]
        exact decide_eq_of_answers hanswers hs h.keepsRules h.config h.oracles h.capability
  rw [refusal?, refusal?, Operation.Kind.refusal?, Operation.Kind.refusal?, hdecision, h.config,
    Operation.Kind.obstacle?_eq hop h.initialized (Store.manager?_eq_of_part h.part)]

/-- An operation leaves a sound store sound. -/
theorem sound_after (hs : w.current.store.Sound) (hinert : behave.IsInert) (now : UInt64)
    (op : Operation) :
  (after behave now op w).current.store.Sound
  := by
  have hstore : ∀ u v : World η ω, v.current = u.current → u.StepsTo v := by
    intro u v h
    rw [StepsTo, h]
  have hsteps := act_steps (fun handle q u => hstore _ _ (hinert handle q u)) now (.operation op) w
  rw [act, wrap_run] at hsteps
  exact Store.Steps.sound hsteps hs

/-- Two operations come to the same in both orders. -/
structure Commute (behave : Behaviour η ω) (now : UInt64) (op₁ op₂ : Operation) (w : World η ω) :
    Prop where
  first : outcome behave now op₁ (after behave now op₂ w) = outcome behave now op₁ w
  second : outcome behave now op₂ (after behave now op₁ w) = outcome behave now op₂ w
  store : (after behave now op₂ (after behave now op₁ w)).current.store =
    (after behave now op₁ (after behave now op₂ w)).current.store
  writes : writes behave now op₁ w + writes behave now op₂ (after behave now op₁ w) =
    writes behave now op₂ w + writes behave now op₁ (after behave now op₂ w)

/-- In a reachable world, two operations of callers on different pairs, neither of which is the pair
of the creation capability, come to the same in both orders, when the oracles leave the instance
alone and answer by their arguments. Different rule sequences that both supply must have different
references. -/
theorem operations_commute (hw : w.IsReachable) (hinert : behave.IsInert)
    {answers : η → Question → Bool}
    (hanswers : ∀ handle q u, ((behave handle q).run u).1 = answers handle q) (now : UInt64)
    {op₁ op₂ : Operation} {caller₁ caller₂ : Entity} {action₁ action₂ : Action} {p₁ p₂ : Pair}
    (hop₁ : op₁.kind.demand? = some (caller₁, action₁, p₁))
    (hop₂ : op₂.kind.demand? = some (caller₂, action₂, p₂)) (hpair : p₁ ≠ p₂)
    (hp₁ : p₁ ≠ w.current.creationPair) (hp₂ : p₂ ≠ w.current.creationPair)
    (hrules : ∀ c₁ c₂, op₁.kind.condition? = some c₁ → op₂.kind.condition? = some c₂ →
      c₁.rules ≠ c₂.rules → c₁.ref ≠ c₂.ref) :
  Commute behave now op₁ op₂ w
  := by
  obtain ⟨x, hx, rfl, hxrules⟩ := Operation.Kind.edit?_of_demand? hop₁
  obtain ⟨y, hy, rfl, hyrules⟩ := Operation.Kind.edit?_of_demand? hop₂
  rw [← hxrules, ← hyrules] at hrules
  have hs := hw.sound
  have hfirst := comesToEdit hs hinert now hx
  have hsecond := comesToEdit hs hinert now hy
  -- each operation comes to its edit after the other, and is refused as before it
  have hfirst' := comesToEdit (sound_after hs hinert now op₂) hinert now hx
  have hsecond' := comesToEdit (sound_after hs hinert now op₁) hinert now hy
  have hrefusal₁ := (hsecond.leavesAlone hpair hp₂.symm).refusal?_eq hs hanswers hx now
  have hrefusal₂ := (hfirst.leavesAlone hpair.symm hp₁.symm).refusal?_eq hs hanswers hy now
  have hstore₁ := hfirst'.store
  have hstore₂ := hsecond'.store
  have hwrites₁ := hfirst'.writes
  have hwrites₂ := hsecond'.writes
  rw [hrefusal₁, hsecond.store] at hstore₁ hwrites₁
  rw [hrefusal₂, hfirst.store] at hstore₂ hwrites₂
  constructor
  · rw [hfirst'.outcome, hfirst.outcome, hrefusal₁]
  · rw [hsecond'.outcome, hsecond.outcome, hrefusal₂]
  · rw [hstore₁, hstore₂]
    cases refusal? behave now op₁ w with
    | some e => rfl
    | none =>
        cases refusal? behave now op₂ w with
        | some e => rfl
        | none => exact Store.edit_comm hpair hrules
  · rw [hfirst.writes, hsecond.writes, hwrites₁, hwrites₂]
    cases refusal? behave now op₁ w with
    | some e => exact Nat.add_comm 0 _
    | none =>
        cases refusal? behave now op₂ w with
        | some e => exact Nat.add_comm _ 0
        | none => exact Edit.writes_comm hpair _

/-! ### An example -/

/-- A world in which one of the pairs was created. -/
def settlingWorld : World Unit Unit :=
  play agreeable 0
    [.operation (.bootstrap ⟨5⟩), .operation (.create ⟨5⟩ ⟨7⟩ examplePair ⟨8⟩ [])]
    blank

/-- The creation of the other pair under a rule. -/
def plannedCreation : Operation :=
  .create ⟨5⟩ ⟨7⟩ otherPair ⟨8⟩ [.always]

/-- A grant of the first pair under the same rule. -/
def settledGrant : Operation :=
  .grant ⟨8⟩ ⟨6⟩ examplePair [.always]

/-- The creation and the grant share a rule sequence, which is stored by the one that is performed
first. They commute for all that. -/
theorem operations_commute_shared :
  settlingWorld.IsReachable ∧
    Commute agreeable 1 plannedCreation settledGrant settlingWorld ∧
    writes agreeable 1 plannedCreation settlingWorld = 3 ∧
    writes agreeable 1 plannedCreation
      (after agreeable 1 settledGrant settlingWorld) = 2
  := by
  have hw : settlingWorld.IsReachable := isReachable_play run_agreeable 0 _
  obtain ⟨hplanned, hsettled, hfirst, hsecond⟩ :
      otherPair ≠ settlingWorld.current.creationPair ∧
        examplePair ≠ settlingWorld.current.creationPair ∧
        writes agreeable 1 plannedCreation settlingWorld = 3 ∧
        writes agreeable 1 plannedCreation
          (after agreeable 1 settledGrant settlingWorld) = 2 := by
    decide +kernel
  have hcommute : Commute agreeable 1 plannedCreation settledGrant settlingWorld := by
    have hanswers : ∀ (handle : Unit) (q : Question) (u : World Unit Unit),
        ((agreeable handle q).run u).1 = true := fun _ _ _ => rfl
    have hpair : otherPair ≠ examplePair := by decide
    apply operations_commute hw isInert_agreeable hanswers 1 rfl rfl hpair hplanned hsettled
    intro c₁ c₂ h₁ h₂ hne
    obtain rfl := Option.some.inj h₁
    obtain rfl := Option.some.inj h₂
    exact absurd rfl hne
  exact ⟨hw, hcommute, hfirst, hsecond⟩

end World

end DelegatedAccess
