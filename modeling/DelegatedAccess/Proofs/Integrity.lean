import DelegatedAccess.Proofs.Burning
import DelegatedAccess.Proofs.Rule.Encoding
import DelegatedAccess.Proofs.Rule.Failure

/-!
# Stores of runs are intact

The tables of the store of a run fit together: every grant can be read, the rule sequence of
every grant is there, and a rule sequence is found under the digest of its stored form. A rule
sequence that is stored once stays as it is. It follows that no decision fails because of the
store, and none because of the structure of the rules.
-/

namespace DelegatedAccess

variable {η ω η' ω' : Type}

namespace Store

/-- The tables of a store fit together. -/
structure IsIntact (s : Store) : Prop where
  /-- Every grant has a key of the right length, and can be read. -/
  grants : ∀ k v, (k, v) ∈ s.grants.entries → k.length = 48 ∧ ∃ g, Grant.decode? v = some g
  /-- The rule sequence of every grant is stored. -/
  backed : ∀ k v r, (k, v) ∈ s.grants.entries → Grant.decode? v = some (.conditional r) →
    s.containsRules r = true
  /-- What is stored under a digest has that digest, and is the stored form of an accepted
  sequence that is not empty. -/
  rules : ∀ k v, (k, v) ∈ s.rules.entries → k = (Sha256.hash v).bytes ∧
    ∃ rules, v = Rule.encodeAll rules ∧ rules ≠ [] ∧ Rule.checkStructure rules = .ok ()

variable {s : Store}

/-- A sound store is intact. -/
theorem Sound.isIntact (hs : s.Sound) :
  s.IsIntact
  where
  grants k v hkv := by
    obtain ⟨p, e, g, rfl, rfl, _⟩ := hs.grants k v ((Table.mem_entries_iff _ _ _).mp hkv)
    exact ⟨Pair.length_grantKey p e, g, Grant.decode?_encode g⟩
  backed k v r hkv hr := by
    have hget := (Table.mem_entries_iff _ _ _).mp hkv
    obtain ⟨p, e, g, rfl, rfl, _⟩ := hs.grants k v hget
    apply hs.backed p e r
    rw [grant?, hget]
    exact hr
  rules k v hkv := by
    obtain ⟨rules, hk, hv, hrules⟩ := hs.rules k v ((Table.mem_entries_iff _ _ _).mp hkv)
    rw [RuleRef.of, ← hv] at hk
    exact ⟨hk, rules, hv, hrules⟩

/-- The gate of a grant in a sound store is an accepted rule sequence. -/
theorem Sound.gate (hs : s.Sound) {p : Pair} {e : Entity} {g : Grant}
    (hg : s.grant? p e = some g) :
  ∃ rules, s.gate g = .ok rules ∧ Rule.checkStructure rules = .ok ()
  := by
  cases g with
  | unconditional => exact ⟨[], rfl, rfl⟩
  | conditional r =>
      obtain ⟨v, hv⟩ := Option.isSome_iff_exists.mp (hs.backed p e r hg)
      obtain ⟨rules, _, rfl, _, hcheck⟩ := hs.rules _ v hv
      refine ⟨rules, ?_, hcheck⟩
      rw [Store.gate, loadRules, hv]
      dsimp only
      rw [Rule.decodeAll?_encodeAll]

end Store

namespace World

/-- A decision on a sound store is misconfigured only by an error that an accepted sequence may
meet. -/
theorem of_decide_misconfigured {w : World η ω} (hs : w.current.store.Sound)
    {behave : Behaviour η ω} {req : Request} {e : RuleError}
    (he : ((decide behave req).run w).1 = .misconfigured e) :
  e.MayOccur w.current.config.maxDepth.toNat
  := by
  rw [decide_run] at he
  apply Decision.of_byGates_misconfigured ?_ he
  intro gate hgate s
  obtain ⟨⟨f, g⟩, hmem, rfl⟩ := List.mem_map.mp hgate
  obtain ⟨rules, hgate, hcheck⟩ := hs.gate (Store.mem_holders_iff.mp hmem).2
  rw [hgate]
  apply Rule.failsOnly_evaluate hcheck

/-- The store of a reachable world is intact, and no run changes or removes a rule sequence in
it. A check on such a store, whatever the oracles and the configuration, answers with a decision
that is not misconfigured by missing or damaged rules, a stray operand, a rule out of reach or a
cycle. -/
theorem store_intact {w : World η ω} (hw : w.IsReachable) :
  w.current.store.IsIntact ∧
    (∀ v, Run w v → w.current.store.KeepsRules v.current.store) ∧
    ∀ {η' ω' : Type} (u : World η' ω') (behave : Behaviour η' ω') (now : UInt64) (req : Request),
      u.current.store = w.current.store →
      ∃ d, ((answer behave now (.check req)).run.run u).1 = .ok (.decision d) ∧
        (∀ r, d ≠ .misconfigured (.missingRules r)) ∧ (∀ r, d ≠ .misconfigured (.corrupted r)) ∧
        (∀ i j n, d ≠ .misconfigured (.operandOutOfRange i j n)) ∧
        (∀ i, d ≠ .misconfigured (.unreachable i)) ∧ ∀ i, d ≠ .misconfigured (.cycle i)
  := by
  refine ⟨hw.sound.isIntact, fun v hrun => hrun.steps.keepsRules, ?_⟩
  intro η' ω' u behave now req hstore
  have hs : u.current.store.Sound := hstore ▸ hw.sound
  have hnot : ∀ e, ¬ e.MayOccur u.current.config.maxDepth.toNat →
      ((decide behave req).run u).1 ≠ .misconfigured e :=
    fun e he heq => he (of_decide_misconfigured hs heq)
  refine ⟨_, answer_check_run behave now req u, ?_, ?_, ?_, ?_, ?_⟩
  · exact fun r => hnot _ (by simp [RuleError.MayOccur, RuleError.IsLocal])
  · exact fun r => hnot _ (by simp [RuleError.MayOccur, RuleError.IsLocal])
  · exact fun i j n => hnot _ (by simp [RuleError.MayOccur, RuleError.IsLocal])
  · exact fun i => hnot _ (by simp [RuleError.MayOccur, RuleError.IsLocal])
  · exact fun i => hnot _ (by simp [RuleError.MayOccur, RuleError.IsLocal])

/-! ### An example -/

/-- A rule sequence the last rule of which is two steps away from the first. -/
def deepRules : List Rule :=
  [.not 1, .not 2, .always]

/-- A world in which two pairs were granted under the same rules, one of which was created again
after it had lost its grant and its manager. The store was then opened for shallow evaluations
only. -/
def shallowWorld : World Unit Unit :=
  play agreeable 0
    [.operation (.bootstrap ⟨5⟩), .operation (.create ⟨5⟩ ⟨7⟩ examplePair ⟨8⟩ deepRules),
      .operation (.create ⟨5⟩ ⟨7⟩ otherPair ⟨8⟩ deepRules),
      .operation (.revoke ⟨8⟩ ⟨7⟩ examplePair), .operation (.removeManager ⟨8⟩ examplePair),
      .operation (.create ⟨5⟩ ⟨7⟩ examplePair ⟨8⟩ deepRules), .reopen { maxDepth := 1 } false]
    blank

/-- The shared rule sequence is stored once, under its digest. A request that depends on it is
misconfigured by its depth, and no request is misconfigured by missing rules. -/
theorem store_intact_shared :
  shallowWorld.IsReachable ∧ shallowWorld.current.store.IsIntact ∧
    shallowWorld.current.store.rules.entries =
      [((Sha256.hash (Rule.encodeAll deepRules)).bytes, Rule.encodeAll deepRules)] ∧
    ((answer agreeable 0 (.check ⟨⟨⟨7⟩, examplePair, []⟩, ⟨0, 0⟩⟩)).run.run
      shallowWorld).1 = .ok (.decision (.misconfigured (.depthExceeded 1))) ∧
    ∀ (behave : Behaviour Unit Unit) (now : UInt64) (req : Request), ∃ d,
      ((answer behave now (.check req)).run.run shallowWorld).1 = .ok (.decision d) ∧
        ∀ r, d ≠ .misconfigured (.missingRules r)
  := by
  have hw : shallowWorld.IsReachable := isReachable_play run_agreeable 0 _
  have hrules : shallowWorld.current.store.rules.entries =
      [((Sha256.hash (Rule.encodeAll deepRules)).bytes, Rule.encodeAll deepRules)] := by
    decide +kernel
  have hdeep : ((answer agreeable 0 (.check ⟨⟨⟨7⟩, examplePair, []⟩, ⟨0, 0⟩⟩)).run.run
      shallowWorld).1 = .ok (.decision (.misconfigured (.depthExceeded 1))) := by
    decide +kernel
  obtain ⟨hintact, _, hcheck⟩ := store_intact hw
  refine ⟨hw, hintact, hrules, hdeep, ?_⟩
  intro behave now req
  obtain ⟨d, hd, hmissing, _⟩ := hcheck shallowWorld behave now req rfl
  exact ⟨d, hd, hmissing⟩

end World

end DelegatedAccess
