import DelegatedAccess.Proofs.Grant
import DelegatedAccess.Proofs.Store.Key
import DelegatedAccess.Proofs.Store.Table
import DelegatedAccess.Transaction

/-!
# What changes of a store do

The six changes that transactions make of a store, and what each of them does to the
manager of a pair, to the grants of a pair, and to the part of the store that is kept for a
pair. A change for one pair leaves the part of every other pair as it is.
-/

namespace DelegatedAccess.Store

/-! ### The changes -/

/-- The store with a grant of a pair to an entity. -/
def putGrant (s : Store) (p : Pair) (e : Entity) (g : Grant) : Store :=
  { s with grants := s.grants.insert (p.grantKey e) g.encode }

/-- The store without the grant of a pair to an entity. -/
def eraseGrant (s : Store) (p : Pair) (e : Entity) : Store :=
  { s with grants := s.grants.erase (p.grantKey e) }

/-- The store with a manager of a pair. -/
def putManager (s : Store) (p : Pair) (m : Entity) : Store :=
  { s with managers := s.managers.insert p.key m.bytes }

/-- The store without the manager of a pair. -/
def eraseManager (s : Store) (p : Pair) : Store :=
  { s with managers := s.managers.erase p.key }

/-- The store with a rule sequence under its reference, where there was nothing. -/
def addRules (s : Store) (rules : List Rule) : Store :=
  if s.containsRules (RuleRef.of rules) then s
  else { s with rules := s.rules.insert (RuleRef.of rules).bytes (Rule.encodeAll rules) }

/-- The store with a text about the instance. -/
def putAbout (s : Store) (key : Bytes) (text : String) : Store :=
  { s with about := s.about.insert key text }

/-- The store with a grant under a rule sequence, which is stored if it is new. -/
def putGate (s : Store) (p : Pair) (e : Entity) (rules : List Rule) : Store :=
  if rules = [] then s.putGrant p e .unconditional
  else (s.addRules rules).putGrant p e (.conditional (RuleRef.of rules))

/-- A grant under a rule sequence is put in with the grants there were. -/
theorem grants_putGate (s : Store) (p : Pair) (e : Entity) (rules : List Rule) :
  (s.putGate p e rules).grants = s.grants.insert (p.grantKey e) (Grant.under rules).encode
  := by
  rw [putGate, Grant.under]
  split
  · rfl
  · rw [addRules]
    split <;> rfl

/-- A grant under a rule sequence leaves the managers there were. -/
theorem managers_putGate (s : Store) (p : Pair) (e : Entity) (rules : List Rule) :
  (s.putGate p e rules).managers = s.managers
  := by
  rw [putGate, addRules]
  split
  · rfl
  · split <;> rfl

/-! ### What a store keeps for a pair -/

/-- What a store keeps for a pair: the bytes of its manager and the entries of its grants. -/
def part (s : Store) (p : Pair) : Option Bytes × List (Bytes × Bytes) :=
  (s.managers.get? p.key, s.grants.withPrefix p.key)

/-- The manager of a pair is read from the part of the pair. -/
theorem manager?_eq_of_part {s t : Store} {p : Pair} (h : s.part p = t.part p) :
  s.manager? p = t.manager? p
  := by
  have hkey : s.managers.get? p.key = t.managers.get? p.key := congrArg Prod.fst h
  rw [manager?, hkey, manager?]

/-- The grants of a pair are read from the part of the pair. -/
theorem grant?_eq_of_part {s t : Store} {p : Pair} (h : s.part p = t.part p) (e : Entity) :
  s.grant? p e = t.grant? p e
  := by
  have hbegin : s.grants.withPrefix p.key = t.grants.withPrefix p.key := congrArg Prod.snd h
  have hkey : s.grants.get? (p.grantKey e) = t.grants.get? (p.grantKey e) := by
    apply Option.ext
    intro bs
    have hs := s.grants.mem_withPrefix_iff (p := p.key) (k := p.grantKey e) (v := bs)
    have ht := t.grants.mem_withPrefix_iff (p := p.key) (k := p.grantKey e) (v := bs)
    rw [Pair.key_isPrefixOf_grantKey_iff] at hs ht
    rw [hbegin, ht] at hs
    simpa using hs.symm
  rw [grant?, hkey, grant?]

/-- The list of the grants of a pair is read from the part of the pair. -/
theorem grantees_eq_of_part {s t : Store} {p : Pair} (h : s.part p = t.part p) :
  s.grantees p = t.grantees p
  := by
  have hbegin : s.grants.withPrefix p.key = t.grants.withPrefix p.key := congrArg Prod.snd h
  rw [grantees, hbegin, grantees]

/-- The grants that count for an entity are read from the part of the pair. -/
theorem holders_eq_of_part {s t : Store} {p : Pair} (h : s.part p = t.part p) (e : Entity) :
  s.holders p e = t.holders p e
  := by
  rw [holders, holders]
  congr 1
  funext f
  rw [grant?_eq_of_part h]

/-! ### Managers after a change -/

/-- The grants that count for an entity are its own and that to every entity. -/
theorem mem_holders_iff {s : Store} {p : Pair} {e f : Entity} {g : Grant} :
  (f, g) ∈ s.holders p e ↔ (f = e ∨ f = .any) ∧ s.grant? p f = some g
  := by
  have hcandidate : f ∈ (if e = .any then [e] else [e, .any]) ↔ f = e ∨ f = .any := by
    split <;> simp_all
  rw [holders, List.mem_filterMap]
  constructor
  · rintro ⟨f', hf', hg⟩
    obtain ⟨g', hg', heq⟩ := Option.map_eq_some_iff.mp hg
    obtain ⟨rfl, rfl⟩ := Prod.mk.inj heq
    exact ⟨hcandidate.mp hf', hg'⟩
  · rintro ⟨hf, hg⟩
    refine ⟨f, hcandidate.mpr hf, ?_⟩
    rw [hg, Option.map_some]

/-- The gates of the grants that count for an entity are the same in two stores when these grants
are, and the gate of each. -/
theorem gates_eq_of_holders {s t : Store} {p : Pair} {e : Entity}
    (hholders : t.holders p e = s.holders p e)
    (hgate : ∀ f g, s.grant? p f = some g → t.grant? p f = some g → t.gate g = s.gate g) :
  ((t.holders p e).map fun h => t.gate h.2) = (s.holders p e).map fun h => s.gate h.2
  := by
  rw [hholders]
  apply List.map_congr_left
  rintro ⟨f, g⟩ hmem
  have hg := (mem_holders_iff.mp hmem).2
  rw [← hholders] at hmem
  exact hgate f g hg (mem_holders_iff.mp hmem).2

/-- The manager of a pair is read from its bytes. -/
theorem manager?_of_get? {s : Store} {p : Pair} {m : Entity}
    (h : s.managers.get? p.key = some m.bytes) :
  s.manager? p = .ok (some m)
  := by
  have hlength : ¬ m.bytes.length < 8 := by simp
  have htake : m.bytes.take 8 = m.bytes := List.take_of_length_le (by simp)
  rw [manager?, h]
  dsimp only
  rw [if_neg hlength, htake, Entity.ofBytes_bytes]

/-- A pair has the manager that it was given last. -/
theorem manager?_putManager (s : Store) (p q : Pair) (m : Entity) :
  (s.putManager p m).manager? q = if q = p then .ok (some m) else s.manager? q
  := by
  by_cases h : q = p
  · subst h
    rw [if_pos rfl]
    apply manager?_of_get?
    rw [putManager, Table.get?_insert, if_pos rfl]
  · have hkey : q.key ≠ p.key := fun hkey => h (Pair.key_injective hkey)
    rw [if_neg h, manager?, putManager, Table.get?_insert, if_neg hkey, manager?]

/-- A pair whose manager was taken has none. -/
theorem manager?_eraseManager (s : Store) (p q : Pair) :
  (s.eraseManager p).manager? q = if q = p then .ok none else s.manager? q
  := by
  by_cases h : q = p
  · subst h
    rw [if_pos rfl, manager?, eraseManager, Table.get?_erase, if_pos rfl]
  · have hkey : q.key ≠ p.key := fun hkey => h (Pair.key_injective hkey)
    rw [if_neg h, manager?, eraseManager, Table.get?_erase, if_neg hkey, manager?]

/-- A grant under a rule sequence leaves all managers. -/
theorem manager?_putGate (s : Store) (p q : Pair) (e : Entity) (rules : List Rule) :
  (s.putGate p e rules).manager? q = s.manager? q
  := by
  rw [manager?, managers_putGate, manager?]

/-! ### Grants after a change -/

/-- An entity has the grant that it was given last. -/
theorem grant?_putGrant (s : Store) (p q : Pair) (e f : Entity) (g : Grant) :
  (s.putGrant p e g).grant? q f = if q = p ∧ f = e then some g else s.grant? q f
  := by
  by_cases h : q = p ∧ f = e
  · obtain ⟨rfl, rfl⟩ := h
    rw [if_pos ⟨rfl, rfl⟩, grant?, putGrant, Table.get?_insert, if_pos rfl, Option.bind_some,
      Grant.decode?_encode]
  · have hkey : q.grantKey f ≠ p.grantKey e := fun hkey => h (Pair.grantKey_injective hkey)
    rw [if_neg h, grant?, putGrant, Table.get?_insert, if_neg hkey, grant?]

/-- An entity whose grant was removed has none. -/
theorem grant?_eraseGrant (s : Store) (p q : Pair) (e f : Entity) :
  (s.eraseGrant p e).grant? q f = if q = p ∧ f = e then none else s.grant? q f
  := by
  by_cases h : q = p ∧ f = e
  · obtain ⟨rfl, rfl⟩ := h
    rw [if_pos ⟨rfl, rfl⟩, grant?, eraseGrant, Table.get?_erase, if_pos rfl, Option.bind_none]
  · have hkey : q.grantKey f ≠ p.grantKey e := fun hkey => h (Pair.grantKey_injective hkey)
    rw [if_neg h, grant?, eraseGrant, Table.get?_erase, if_neg hkey, grant?]

/-! ### Parts after a change -/

/-- The keys of the grants of a pair do not begin with the key of another. -/
theorem isPrefixOf_grantKey_of_ne {p q : Pair} (h : p ≠ q) (e : Entity) :
  p.key.isPrefixOf (q.grantKey e) = false
  := by
  rw [Bool.eq_false_iff]
  intro hbegin
  apply h (Pair.key_isPrefixOf_grantKey_iff.mp hbegin)

/-- A grant of one pair is no part of another. -/
theorem part_putGrant_of_ne {p q : Pair} (h : p ≠ q) (s : Store) (e : Entity) (g : Grant) :
  (s.putGrant q e g).part p = s.part p
  := by
  rw [part, putGrant, Table.withPrefix_insert _ _ (isPrefixOf_grantKey_of_ne h e), part]

/-- The removal of a grant of one pair leaves the part of another. -/
theorem part_eraseGrant_of_ne {p q : Pair} (h : p ≠ q) (s : Store) (e : Entity) :
  (s.eraseGrant q e).part p = s.part p
  := by
  rw [part, eraseGrant, Table.withPrefix_erase _ (isPrefixOf_grantKey_of_ne h e), part]

/-- The manager of one pair is no part of another. -/
theorem part_putManager_of_ne {p q : Pair} (h : p ≠ q) (s : Store) (m : Entity) :
  (s.putManager q m).part p = s.part p
  := by
  have hkey : p.key ≠ q.key := fun hkey => h (Pair.key_injective hkey)
  rw [part, putManager, Table.get?_insert, if_neg hkey, part]

/-- The loss of the manager of one pair leaves the part of another. -/
theorem part_eraseManager_of_ne {p q : Pair} (h : p ≠ q) (s : Store) :
  (s.eraseManager q).part p = s.part p
  := by
  have hkey : p.key ≠ q.key := fun hkey => h (Pair.key_injective hkey)
  rw [part, eraseManager, Table.get?_erase, if_neg hkey, part]

/-- Rule sequences are no part of a pair. -/
theorem part_addRules (s : Store) (rules : List Rule) (p : Pair) :
  (s.addRules rules).part p = s.part p
  := by
  rw [addRules]
  split <;> rfl

/-- A grant of one pair under a rule sequence is no part of another. -/
theorem part_putGate_of_ne {p q : Pair} (h : p ≠ q) (s : Store) (e : Entity)
    (rules : List Rule) :
  (s.putGate q e rules).part p = s.part p
  := by
  rw [putGate]
  split
  · apply part_putGrant_of_ne h
  · rw [part_putGrant_of_ne h, part_addRules]

/-- Texts about the instance are no part of a pair. -/
theorem part_putAbout (s : Store) (key : Bytes) (text : String) (p : Pair) :
  (s.putAbout key text).part p = s.part p
  := rfl

/-! ### Grants under rule sequences -/

/-- An entity has the grant under the rule sequence that it was given last. -/
theorem grant?_putGate (s : Store) (p q : Pair) (e f : Entity) (rules : List Rule) :
  (s.putGate p e rules).grant? q f = if q = p ∧ f = e then some (Grant.under rules)
    else s.grant? q f
  := by
  rw [putGate, Grant.under]
  split
  · rw [grant?_putGrant]
  · rw [grant?_putGrant, grant?_eq_of_part (part_addRules s rules q)]

end DelegatedAccess.Store
