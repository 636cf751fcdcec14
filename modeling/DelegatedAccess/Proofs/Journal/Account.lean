import DelegatedAccess.Proofs.Ledger.Representation
import DelegatedAccess.Proofs.Store.Step

/-!
# Accounts of events

Events give an account of a store: what is granted to whom, who manages which pair, whether the
store is initialized or a template, and which rule sequences were stored. An account describes a
store when the tables of the store hold what the account says and nothing else.

The main result of this module is that the events of a transaction make the account of the store
before it one of the store after it.
-/

namespace DelegatedAccess

/-! ### Tables and finite maps -/

namespace Table

variable {κ α β : Type} [DecidableEq κ] {key : κ → Bytes} {form : α → β} {t : Table β}
  {m : Finmap fun _ : κ => α}

/-- A table holds a finite map when it has the stored form of each value of the map under the key
for it, and nothing else. -/
def Holds (key : κ → Bytes) (form : α → β) (t : Table β) (m : Finmap fun _ : κ => α) : Prop :=
  ∀ k v, t.get? k = some v ↔ ∃ x a, m.lookup x = some a ∧ k = key x ∧ v = form a

/-- The empty table holds the empty map. -/
theorem Holds.empty :
  (Table.empty : Table β).Holds key form (∅ : Finmap fun _ : κ => α)
  := by
  intro k v
  constructor
  · intro h
    contradiction
  · rintro ⟨x, a, h, _⟩
    rw [Finmap.lookup_empty] at h
    contradiction

/-- A value put into both is held. -/
theorem Holds.insert (h : t.Holds key form m) (hkey : Function.Injective key) (x : κ) (a : α) :
  (t.insert (key x) (form a)).Holds key form (m.insert x a)
  := by
  intro k v
  rw [get?_insert]
  by_cases hk : k = key x
  · subst hk
    rw [if_pos rfl]
    constructor
    · intro hv
      exact ⟨x, a, Finmap.lookup_insert m, rfl, (Option.some.inj hv).symm⟩
    · rintro ⟨y, b, hb, hy, rfl⟩
      obtain rfl := hkey hy
      rw [Finmap.lookup_insert] at hb
      rw [Option.some.inj hb]
  · rw [if_neg hk, h k v]
    refine exists_congr fun y => exists_congr fun b => and_congr_left ?_
    rintro ⟨rfl, _⟩
    rw [Finmap.lookup_insert_of_ne m fun heq => hk (congrArg key heq)]

/-- What is taken out of both is no longer held. -/
theorem Holds.erase (h : t.Holds key form m) (hkey : Function.Injective key) (x : κ) :
  (t.erase (key x)).Holds key form (m.erase x)
  := by
  intro k v
  rw [get?_erase]
  by_cases hk : k = key x
  · subst hk
    rw [if_pos rfl]
    constructor
    · intro hv
      contradiction
    · rintro ⟨y, b, hb, hy, rfl⟩
      obtain rfl := hkey hy
      rw [Finmap.lookup_erase] at hb
      contradiction
  · rw [if_neg hk, h k v]
    refine exists_congr fun y => exists_congr fun b => and_congr_left ?_
    rintro ⟨rfl, _⟩
    rw [Finmap.lookup_erase_ne fun heq => hk (congrArg key heq)]

/-- A value put in under a new key is one more entry. -/
theorem perm_entries_insert {k : Bytes} (v : β) (h : t.get? k = none) :
  (t.insert k v).entries.Perm ((k, v) :: t.entries)
  := by
  have hput : ∀ es : List (Bytes × β), es.lookup k = none → (put k v es).Perm ((k, v) :: es) := by
    intro es hnone
    induction es with
    | nil => rfl
    | cons x es ih =>
        rw [List.lookup_cons] at hnone
        rw [put]
        split
        · rfl
        · split
          next heq => simp [heq] at hnone
          next hne =>
            rw [beq_eq_false_iff_ne.mpr hne] at hnone
            exact ((ih hnone).cons x).trans (List.Perm.swap _ _ _)
  apply hput t.entries h

end Table

/-! ### Accounts -/

/-- What events tell of a store. -/
structure Account where
  /-- The grants of pairs to entities. -/
  grants : Finmap fun _ : Pair × Entity => Grant
  /-- The managers of the pairs that have one. -/
  managers : Finmap fun _ : Pair => Entity
  root : Option Entity
  frozen : Bool
  /-- The references to the rule sequences that were stored, with the numbers of their rules. -/
  sequences : List (RuleRef × Nat)

namespace Account

/-- Nothing has been told. -/
def empty : Account :=
  ⟨∅, ∅, none, false, []⟩

/-- One more event has been told. -/
def note (a : Account) : Event → Account
  | .permissionSet e p true ref => { a with grants := a.grants.insert (p, e) (Grant.ofRef ref) }
  | .permissionSet e p false _ => { a with grants := a.grants.erase (p, e) }
  | .rulesStored _ _ ref length => { a with sequences := a.sequences ++ [(ref, length)] }
  | .managerChanged p (some m) => { a with managers := a.managers.insert p m }
  | .managerChanged p none => { a with managers := a.managers.erase p }
  | .initialized root => { a with root := some root }
  | .frozen => { a with frozen := true }

/-- More events have been told, one after another. -/
def after (a : Account) (events : List Event) : Account :=
  events.foldl note a

/-- What events tell from the start. -/
def ofEvents (events : List Event) : Account :=
  empty.after events

/-- Events are told one after another. -/
theorem after_append (a : Account) (events more : List Event) :
  a.after (events ++ more) = (a.after events).after more
  := List.foldl_append

/-- The last event is told last. -/
theorem after_concat (a : Account) (events : List Event) (event : Event) :
  a.after (events ++ [event]) = (a.after events).note event
  := a.after_append events [event]

/-- An account describes a store when the grants, the managers, the root and the mark of a
template are exactly those of the account, and the keys of the rule sequences, each with the
number of rules that are stored under it, are those of the account, each told once. -/
structure Describes (a : Account) (s : Store) : Prop where
  grants : s.grants.Holds (fun x : Pair × Entity => x.1.grantKey x.2) Grant.encode a.grants
  managers : s.managers.Holds Pair.key Entity.bytes a.managers
  root : s.root? = a.root
  frozen : s.isFrozen = a.frozen
  sequences : (a.sequences.map fun x => (x.1.bytes, some x.2)).Perm
    (s.rules.entries.map fun x => (x.1, (Rule.decodeAll? x.2).map List.length))

/-! ### Events of changes -/

namespace Describes

variable {a : Account} {s : Store}

/-- Nothing is told of the store that holds nothing. -/
theorem empty :
  Account.empty.Describes Store.empty
  where
  grants := Table.Holds.empty
  managers := Table.Holds.empty
  root := rfl
  frozen := rfl
  sequences := List.Perm.nil

/-- Different grants have different keys. -/
theorem grantKey_injective :
  Function.Injective fun x : Pair × Entity => x.1.grantKey x.2
  := by
  intro x y h
  obtain ⟨hp, he⟩ := Pair.grantKey_injective h
  exact Prod.ext hp he

/-- A grant that is installed is told of. -/
theorem putGrant (h : a.Describes s) (p : Pair) (e : Entity) (ref : Option RuleRef) :
  (a.note (.permissionSet e p true ref)).Describes (s.putGrant p e (Grant.ofRef ref))
  := { h with grants := h.grants.insert grantKey_injective (p, e) (Grant.ofRef ref) }

/-- A grant that is removed is told of. -/
theorem eraseGrant (h : a.Describes s) (p : Pair) (e : Entity) (ref : Option RuleRef) :
  (a.note (.permissionSet e p false ref)).Describes (s.eraseGrant p e)
  := { h with grants := h.grants.erase grantKey_injective (p, e) }

/-- A manager that is set is told of. -/
theorem putManager (h : a.Describes s) (p : Pair) (m : Entity) :
  (a.note (.managerChanged p (some m))).Describes (s.putManager p m)
  := { h with managers := h.managers.insert (fun _ _ => Pair.key_injective) p m }

/-- A manager that is cleared is told of. -/
theorem eraseManager (h : a.Describes s) (p : Pair) :
  (a.note (.managerChanged p none)).Describes (s.eraseManager p)
  := { h with managers := h.managers.erase (fun _ _ => Pair.key_injective) p }

/-- A rule sequence that is new is told of, with the number of its rules. -/
theorem addRules (h : a.Describes s) {rules : List Rule}
    (hnew : s.containsRules (RuleRef.of rules) = false) (p : Pair) (e : Entity) :
  (a.note (.rulesStored e p (RuleRef.of rules) rules.length)).Describes
    { s with rules := s.rules.insert (RuleRef.of rules).bytes (Rule.encodeAll rules) }
  := by
  have hnone : s.rules.get? (RuleRef.of rules).bytes = none := by
    rwa [Store.containsRules, Table.contains, Option.isSome_eq_false_iff,
      Option.isNone_iff_eq_none] at hnew
  refine { h with sequences := ?_ }
  have hentries := (s.rules.perm_entries_insert (Rule.encodeAll rules) hnone).map
    fun x => (x.1, (Rule.decodeAll? x.2).map List.length)
  rw [List.map_cons] at hentries
  dsimp only at hentries
  rw [Rule.decodeAll?_encodeAll, Option.map_some] at hentries
  have htold := h.sequences.cons ((RuleRef.of rules).bytes, some rules.length)
  apply List.Perm.trans _ (htold.trans hentries.symm)
  change ((a.sequences ++ [(RuleRef.of rules, rules.length)]).map _).Perm _
  rw [List.map_append]
  apply List.perm_append_singleton

/-- The mark of a template is told of. -/
theorem freeze (h : a.Describes s) :
  (a.note .frozen).Describes (s.putAbout Store.frozenKey "1")
  := by
  refine { h with root := ?_, frozen := ?_ }
  · rw [Store.root?_freeze, h.root]
    rfl
  · rw [Store.isFrozen, Store.contains_putAbout, decide_eq_true rfl]
    rfl

/-- Initialization is told of: the grant of the root, its being the manager, and the root. -/
theorem bootstrap (h : a.Describes s) (resource : Resource) (root : Entity) (now : UInt64) :
  (((a.note (.permissionSet root (Transaction.creationPair resource) true none)).note
    (.managerChanged (Transaction.creationPair resource) (some root))).note
      (.initialized root)).Describes (s.bootstrap resource root now)
  := by
  have htables := (h.putGrant (Transaction.creationPair resource) root none).putManager
    (Transaction.creationPair resource) root
  refine
    { grants := htables.grants
      managers := htables.managers
      root := ?_
      frozen := ?_
      sequences := htables.sequences }
  · apply Store.root?_bootstrap
  · rw [Store.isFrozen_bootstrap]
    exact h.frozen

end Describes

end Account

/-! ### Events of drafts -/

namespace Draft

/-- The events of a draft make an account one of the store as the draft has changed it. -/
def IsTold (a : Account) (d : Draft) : Prop :=
  (a.after d.receipt.events).Describes d.store

variable {a : Account}

/-- A change and the event that tells of it. -/
theorem isTold_emit_write {d : Draft} {s : Store} {event : Event}
    (h : ((a.after d.receipt.events).note event).Describes s) :
  ((d.write s).emit event).IsTold a
  := by
  rw [← Account.after_concat] at h
  exact h

namespace IsTold

variable {d : Draft}

/-- A transaction that has done nothing tells nothing. -/
theorem start {s : Store} (h : a.Describes s) :
  (Draft.start s).IsTold a
  := h

/-- A grant that is installed is told of. -/
theorem setGrant (h : d.IsTold a) (p : Pair) (e : Entity) (ref : Option RuleRef) :
  (d.setGrant p e ref).IsTold a
  := isTold_emit_write (h.putGrant p e ref)

/-- A grant is told to be removed only if there is one. -/
theorem clearGrant (h : d.IsTold a) (p : Pair) (e : Entity) :
  (d.clearGrant p e).IsTold a
  := by
  rw [Draft.clearGrant]
  split
  · exact isTold_emit_write (h.eraseGrant p e none)
  · exact h

/-- A manager that is set is told of. -/
theorem setManager (h : d.IsTold a) (p : Pair) (m : Entity) :
  (d.setManager p m).IsTold a
  := isTold_emit_write (h.putManager p m)

/-- A manager that is cleared is told of. -/
theorem clearManager (h : d.IsTold a) (p : Pair) :
  (d.clearManager p).IsTold a
  := isTold_emit_write (h.eraseManager p)

/-- A grant under a rule sequence is told of, and so is the sequence if it is new. -/
theorem install (h : d.IsTold a) (p : Pair) (e : Entity) (rules : List Rule) :
  (d.install p e rules).IsTold a
  := by
  rw [Draft.install]
  dsimp only
  split
  · apply h.setGrant
  · cases hnew : d.store.containsRules (RuleRef.of rules) with
    | true =>
        have hsame : d.storeRules rules = d := by rw [Draft.storeRules, if_pos hnew]
        rw [if_pos rfl, hsame]
        exact h.setGrant p e (some (RuleRef.of rules))
    | false =>
        -- the sequence is stored before the grant and told of after it
        have hgranted := h.setGrant p e (some (RuleRef.of rules))
        have htold := hgranted.addRules hnew p e
        rw [← Account.after_concat] at htold
        rw [if_neg Bool.false_ne_true, Draft.storeRules, if_neg (by simp [hnew])]
        exact htold

/-- The mark of a template is told of. -/
theorem markFrozen (h : d.IsTold a) :
  d.markFrozen.IsTold a
  := isTold_emit_write (Account.Describes.freeze h)

/-- What a task does is told of. -/
theorem task (h : d.IsTold a) (p : Pair) (task : Task) :
  (task.draft p d).IsTold a
  := by
  cases task with
  | grant e rules => apply h.install
  | revoke e => apply h.clearGrant
  | setManager m => apply h.setManager
  | removeManager => apply h.clearManager
  | burnManager => apply h.setManager

/-- What a creation does is told of. -/
theorem creation (h : d.IsTold a) (c : Creation) :
  (c.draft d).IsTold a
  := by
  rw [Creation.draft]
  cases c.grantee with
  | none => apply h.setManager
  | some g => exact (h.install c.pair g.1 g.2).setManager c.pair c.manager

end IsTold

end Draft

/-- The events of a transaction make the account of the store before it one of the store after
it. -/
theorem Drafted.isTold {resource : Resource} {s : Store} {kind : Operation.Kind} {d : Draft}
    (h : Drafted resource s kind d) {a : Account} (ha : a.Describes s) :
  d.IsTold a
  := by
  have hstart := Draft.IsTold.start ha
  cases h with
  | bootstrap root now hfrozen hinitialized => exact ha.bootstrap resource root now
  | freeze hfrozen hinitialized => apply hstart.markFrozen
  | refreeze hfrozen => exact hstart
  | create c hinitialized hcaller hfree => apply hstart.creation
  | manage caller p task hinitialized hcaller hmanager => apply hstart.task

end DelegatedAccess
