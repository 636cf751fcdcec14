import DelegatedAccess.Proofs.Burning
import DelegatedAccess.Proofs.Consultation
import DelegatedAccess.Proofs.Isolation

/-!
# Operations on one pair leave the others alone

What an operation does to a pair cannot be found out by asking about another pair, even though the
grants of all pairs lie in one table and their rule sequences are shared. Asking about one entity
does not show what is granted to another either, unless it is granted to every entity.

The main result of this module says so about whatever can be asked of an instance, by any host and
with any oracles.
-/

namespace DelegatedAccess

variable {η ω : Type}

/-! ### What queries and operations are about -/

/-- The pair that a query is about. -/
def Query.pair? : Query → Option Pair
  | .status => none
  | .config => none
  | .has _ p _ => some p
  | .check req => some req.question.pair
  | .manager p => some p
  | .grant _ p => some p
  | .ruleCount _ p => some p
  | .rule _ p _ => some p
  | .grantees p => some p

/-- The entity whose grants a query is about. -/
def Query.entity? : Query → Option Entity
  | .has e _ _ => some e
  | .check req => some req.question.who
  | .grant e _ => some e
  | .ruleCount e _ => some e
  | .rule e _ _ => some e
  | _ => none

/-- The pair that an operation is on, for an instance with a resource of its own. Initialization is
on the pair of the creation capability. -/
def Operation.Kind.pair? (resource : Resource) : Operation.Kind → Option Pair
  | .bootstrap _ => some (Transaction.creationPair resource)
  | .freeze => none
  | .create c => some c.pair
  | .manage _ p _ => some p

/-- The entity that something is granted to or revoked from. -/
def Operation.Kind.grantee? : Operation.Kind → Option Entity
  | .bootstrap root => some root
  | .create c => c.grantee.map Prod.fst
  | .manage _ _ (.grant e _) => some e
  | .manage _ _ (.revoke e) => some e
  | _ => none

/-! ### What operations leave of a store -/

section

variable {resource : Resource} {s : Store} {kind : Operation.Kind} {d : Draft}

/-- An operation leaves the part of every pair but its own. -/
theorem Drafted.part_of_ne (h : Drafted resource s kind d) {q : Pair}
    (hne : kind.pair? resource ≠ some q) :
  d.store.part q = s.part q
  := by
  have hpair : ∀ p, kind.pair? resource = some p → q ≠ p := by
    rintro p hp rfl
    exact hne hp
  cases h with
  | bootstrap root now hfrozen hinitialized =>
      exact Store.part_bootstrap_of_ne (hpair _ rfl) s root now
  | freeze hfrozen hinitialized => apply Store.part_putAbout
  | refreeze hfrozen => rfl
  | create c hinitialized hcaller hfree =>
      rw [Creation.store_draft]
      apply Store.part_creation_of_ne (hpair _ rfl)
  | manage caller p task hinitialized hcaller hmanager =>
      rw [Task.store_draft]
      apply Store.part_task_of_ne (hpair _ rfl)

/-- An operation leaves the grants to every entity but the one that it grants to or revokes
from. -/
theorem Drafted.grant?_of_ne (h : Drafted resource s kind d) {f : Entity}
    (hne : kind.grantee? ≠ some f) (q : Pair) :
  d.store.grant? q f = s.grant? q f
  := by
  have hgrantee : ∀ p e, kind.grantee? = some e → ¬ (q = p ∧ f = e) := by
    rintro p e he ⟨-, rfl⟩
    exact hne he
  cases h with
  | bootstrap root now hfrozen hinitialized =>
      change (s.putGrant _ root .unconditional).grant? q f = _
      rw [Store.grant?_putGrant, if_neg (hgrantee _ _ rfl)]
  | freeze hfrozen hinitialized => rfl
  | refreeze hfrozen => rfl
  | create c hinitialized hcaller hfree =>
      rw [Creation.store_draft]
      obtain ⟨caller, p, grantee, m⟩ := c
      cases grantee with
      | none => rfl
      | some g =>
          change (s.putGate p g.1 g.2).grant? q f = _
          rw [Store.grant?_putGate, if_neg (hgrantee _ _ rfl)]
  | manage caller p task hinitialized hcaller hmanager =>
      rw [Task.store_draft]
      cases task with
      | grant e rules =>
          change (s.putGate p e rules).grant? q f = _
          rw [Store.grant?_putGate, if_neg (hgrantee _ _ rfl)]
      | revoke e =>
          change (s.eraseGrant p e).grant? q f = _
          rw [Store.grant?_eraseGrant, if_neg (hgrantee _ _ rfl)]
      | setManager m => rfl
      | removeManager => rfl
      | burnManager => rfl

end

/-! ### What queries read of a store -/

namespace World

/-- What is found out by a query is whether the request is granted. -/
theorem has_run (behave : Behaviour η ω) (now : UInt64) (e : Entity) (p : Pair)
    (args : List Value) (w : World η ω) :
  (answer behave now (.has e p args)).run.run w =
    (.ok (.truth (((decide behave ⟨⟨e, p, args⟩, ⟨now, 0⟩⟩).run w).1 = .granted)),
      ((decide behave ⟨⟨e, p, args⟩, ⟨now, 0⟩⟩).run w).2)
  := by
  rw [answer, wrap_run]
  rfl

end World

namespace Store

/-- Two stores give the same answer to a query: hosts with alike oracles that ask instances which
differ in nothing but the store get the same answer, and go on from worlds that are related if those
that they began with were. -/
def SameAnswer (query : Query) (s t : Store) : Prop :=
  ∀ (η ω ω' : Type) (R : World η ω → World η ω' → Prop) (behave : World.Behaviour η ω)
    (behave' : World.Behaviour η ω'), behave.Alike R behave' →
    ∀ (now : UInt64) (i : Instance η) (host : ω) (host' : ω'),
      R ⟨{ i with store := s }, host⟩ ⟨{ i with store := t }, host'⟩ →
      ((World.answer behave now query).run.run ⟨{ i with store := s }, host⟩).1 =
          ((World.answer behave' now query).run.run ⟨{ i with store := t }, host'⟩).1 ∧
        R ((World.answer behave now query).run.run ⟨{ i with store := s }, host⟩).2
          ((World.answer behave' now query).run.run ⟨{ i with store := t }, host'⟩).2

variable {s t : Store} {query : Query}

/-- With oracles that only answer, the answer to the query is the same. -/
theorem SameAnswer.quiet (h : SameAnswer query s t) (answers : η → Question → Bool)
    (now : UInt64) (i : Instance η) (host : ω) :
  ((World.answer (World.quiet answers) now query).run.run ⟨{ i with store := s }, host⟩).1 =
    ((World.answer (World.quiet answers) now query).run.run ⟨{ i with store := t }, host⟩).1
  := by
  have halike : (World.quiet answers).Alike (fun (_ _ : World η ω) => True)
      (World.quiet answers) := fun _ _ _ _ _ => ⟨rfl, trivial⟩
  exact (h η ω ω _ _ _ halike now i host host trivial).1

/-- A query that reads the same in two stores has the same answer. -/
theorem SameAnswer.of_read {α : Type} (read : Store → Except AccessError α) {f : α → Answer}
    (hquery : ∀ {η ω : Type} (behave : World.Behaviour η ω) (now : UInt64),
      World.answer behave now query = do return f (← World.stored read))
    (h : read t = read s) :
  SameAnswer query s t
  := by
  intro η ω ω' R behave behave' _ now i host host' hrel
  rw [hquery, hquery, World.read_run, World.read_run]
  dsimp only
  rw [h]
  exact ⟨rfl, hrel⟩

/-- The rules that gate the grant of an entity stay when the grant and the rule sequences do. -/
theorem Sound.rulesOf_eq (hs : s.Sound) (hkeeps : s.KeepsRules t) {p : Pair} {f : Entity}
    (hgrant : t.grant? p f = s.grant? p f) :
  t.rulesOf p f = s.rulesOf p f
  := by
  rw [rulesOf, hgrant, rulesOf]
  cases hg : s.grant? p f with
  | none => rfl
  | some g =>
      dsimp only
      rw [gate_eq_of_keepsRules hs hkeeps hg]

/-- A request is decided the same when the grants that count and the rule sequences stay. -/
theorem Sound.decide_eq (hs : s.Sound) (hkeeps : s.KeepsRules t) {ω' : Type}
    {R : World η ω → World η ω' → Prop} {behave : World.Behaviour η ω}
    {behave' : World.Behaviour η ω'} (halike : behave.Alike R behave') (req : Request)
    (hsame : SameHolders req.question.pair req.question.who s t) {i : Instance η} {host : ω}
    {host' : ω'} (hrel : R ⟨{ i with store := s }, host⟩ ⟨{ i with store := t }, host'⟩) :
  ((World.decide behave req).run ⟨{ i with store := s }, host⟩).1 =
      ((World.decide behave' req).run ⟨{ i with store := t }, host'⟩).1 ∧
    R ((World.decide behave req).run ⟨{ i with store := s }, host⟩).2
      ((World.decide behave' req).run ⟨{ i with store := t }, host'⟩).2
  := by
  have hgates := gates_eq_of_holders (holders_eq_iff.mpr hsame)
    fun _ _ hg _ => gate_eq_of_keepsRules hs hkeeps hg
  exact World.decide_eq_of_gates (w := ⟨{ i with store := s }, host⟩)
    (v := ⟨{ i with store := t }, host'⟩) (halike.panel i) rfl hgates hrel

/-- What is asked about an entity is answered the same when the grants that count for it stay, and
the rule sequences. -/
theorem Sound.sameAnswer_of_holders (hs : s.Sound) (hkeeps : s.KeepsRules t) {p : Pair}
    {f : Entity} (hpair : query.pair? = some p) (hentity : query.entity? = some f)
    (hsame : SameHolders p f s t) :
  SameAnswer query s t
  := by
  cases query with
  | status => contradiction
  | config => contradiction
  | manager q => contradiction
  | grantees q => contradiction
  | has e q args =>
      obtain rfl := Option.some.inj hpair
      obtain rfl := Option.some.inj hentity
      intro η ω ω' R behave behave' halike now i host host' hrel
      obtain ⟨hdecision, hrest⟩ := hs.decide_eq hkeeps halike
        ⟨⟨e, q, args⟩, ⟨now, 0⟩⟩ hsame hrel
      rw [World.has_run, World.has_run, hdecision]
      exact ⟨rfl, hrest⟩
  | check req =>
      obtain rfl := Option.some.inj hpair
      obtain rfl := Option.some.inj hentity
      intro η ω ω' R behave behave' halike now i host host' hrel
      obtain ⟨hdecision, hrest⟩ := hs.decide_eq hkeeps halike req hsame hrel
      rw [World.check_run, World.check_run, hdecision]
      exact ⟨rfl, hrest⟩
  | grant e q =>
      obtain rfl := Option.some.inj hpair
      obtain rfl := Option.some.inj hentity
      exact SameAnswer.of_read (fun s => .ok (s.grant? q e)) (fun _ _ => rfl)
        (congrArg Except.ok hsame.1)
  | ruleCount e q =>
      obtain rfl := Option.some.inj hpair
      obtain rfl := Option.some.inj hentity
      exact SameAnswer.of_read (·.rulesOf q e) (fun _ _ => rfl) (hs.rulesOf_eq hkeeps hsame.1)
  | rule e q index =>
      obtain rfl := Option.some.inj hpair
      obtain rfl := Option.some.inj hentity
      exact SameAnswer.of_read (·.rulesOf q e) (fun _ _ => rfl) (hs.rulesOf_eq hkeeps hsame.1)

/-- What is asked about a pair is answered the same when the part of the pair stays, and the rule
sequences. -/
theorem Sound.sameAnswer_of_part (hs : s.Sound) (hkeeps : s.KeepsRules t) {p : Pair}
    (hpair : query.pair? = some p) (hpart : t.part p = s.part p) :
  SameAnswer query s t
  := by
  cases hentity : query.entity? with
  | some f =>
      apply hs.sameAnswer_of_holders hkeeps hpair hentity
      exact ⟨grant?_eq_of_part hpart f, grant?_eq_of_part hpart .any⟩
  | none =>
      cases query with
      | status => contradiction
      | config => contradiction
      | has e q args => contradiction
      | check req => contradiction
      | grant e q => contradiction
      | ruleCount e q => contradiction
      | rule e q index => contradiction
      | manager q =>
          obtain rfl := Option.some.inj hpair
          exact SameAnswer.of_read (·.manager? q) (fun _ _ => rfl) (manager?_eq_of_part hpart)
      | grantees q =>
          obtain rfl := Option.some.inj hpair
          have hgrantees : t.grantees q = s.grantees q := by
            have hbegin : t.grants.withPrefix q.key = s.grants.withPrefix q.key :=
              congrArg Prod.snd hpart
            rw [grantees, hbegin, grantees]
          exact SameAnswer.of_read (fun s => .ok (s.grantees q)) (fun _ _ => rfl)
            (congrArg Except.ok hgrantees)

end Store

/-! ### Operations -/

namespace World

/-- In a reachable world an operation does not change the answer to any query on another pair, and
to queries about an entity only if it grants to that entity, revokes from it, or does so for every
entity. What oracles do when the operation consults them counts as done before. -/
theorem operation_separate {w : World η ω} (hw : w.IsReachable) {behave : Behaviour η ω}
    (nested : ∀ handle q u, Run u ((behave handle q).run u).2) (now : UInt64) (op : Operation) :
  (behave.IsInert → (consulted behave now op.kind w).current = w.current) ∧
    ∀ (query : Query) (q : Pair), query.pair? = some q →
      (op.kind.pair? w.current.config.resource ≠ some q →
        Store.SameAnswer query (consulted behave now op.kind w).current.store
          ((perform behave now op).run.run w).2.current.store) ∧
      ∀ f, query.entity? = some f →
        (∀ e, op.kind.grantee? = some e → e ≠ .any ∧ f ≠ e) →
        Store.SameAnswer query (consulted behave now op.kind w).current.store
          ((perform behave now op).run.run w).2.current.store
  := by
  constructor
  · intro hinert
    apply hinert.current_consulted
  have hsteps : w.StepsTo (consulted behave now op.kind w) :=
    consulted_moves (fun handle q u => (nested handle q u).steps)
      (fun _ => Relation.ReflTransGen.refl) (fun _ _ _ => Relation.ReflTransGen.trans) now op.kind w
  have hs := Store.Steps.sound hsteps hw.sound
  have hconcluded := concluded_perform behave now op w
  generalize (perform behave now op).run.run w = result at hconcluded ⊢
  obtain ⟨result, u⟩ := result
  intro query q hpair
  cases hconcluded with
  | failed e =>
      have hsame := hs.sameAnswer_of_part (Store.KeepsRules.refl _) hpair rfl
      exact ⟨fun _ => hsame, fun _ _ _ => hsame⟩
  | done hscreen hdrafted =>
      have hkeeps := (hdrafted.step (Operation.isWellFormed_kind hscreen)).keepsRules
      constructor
      · intro hne
        apply hs.sameAnswer_of_part hkeeps hpair (hdrafted.part_of_ne hne)
      · intro f hentity hother
        apply hs.sameAnswer_of_holders hkeeps hpair hentity
        constructor
        · apply hdrafted.grant?_of_ne
          exact fun he => (hother f he).2 rfl
        · apply hdrafted.grant?_of_ne
          exact fun he => (hother .any he).1 rfl

/-! ### An example -/

/-- A world in which the pair is granted to an entity under an oracle. -/
def openWorld : World Unit Unit :=
  play agreeable 0
    [.operation (.bootstrap ⟨5⟩), .register ⟨3⟩ (),
      .operation (.create ⟨5⟩ ⟨7⟩ examplePair ⟨8⟩ [.oracle ⟨3⟩])]
    blank

/-- What the grant of the pair to another entity makes of the store. -/
def widenedStore : Store :=
  ((perform agreeable 1 (.grant ⟨8⟩ ⟨6⟩ examplePair [.oracle ⟨3⟩])).run.run
    openWorld).2.current.store

/-- The pair is granted to one more entity. This does not show in the grants of another pair, nor
when the entity to which the pair was granted before asks, whatever the oracles answer. -/
theorem operation_separate_widened :
  widenedStore.grantees examplePair ≠ openWorld.current.store.grantees examplePair ∧
    Store.SameAnswer (.grantees (Transaction.creationPair ⟨1⟩)) openWorld.current.store
      widenedStore ∧
    ∀ answers : Unit → Question → Bool,
      ((answer (quiet answers) 2 (.check ⟨⟨⟨7⟩, examplePair, []⟩, ⟨2, 0⟩⟩)).run.run
          ⟨openWorld.current, ()⟩).1 =
        ((answer (quiet answers) 2 (.check ⟨⟨⟨7⟩, examplePair, []⟩, ⟨2, 0⟩⟩)).run.run
          ⟨{ openWorld.current with store := widenedStore }, ()⟩).1
  := by
  have hw : openWorld.IsReachable := isReachable_play run_agreeable 0 _
  have hchanged : widenedStore.grantees examplePair ≠
      openWorld.current.store.grantees examplePair := by
    decide +kernel
  obtain ⟨_, hseparate⟩ := operation_separate hw run_agreeable 1
    (.grant ⟨8⟩ ⟨6⟩ examplePair [.oracle ⟨3⟩])
  have hother : Store.SameAnswer (.grantees (Transaction.creationPair ⟨1⟩))
      openWorld.current.store widenedStore := by
    apply (hseparate _ _ rfl).1
    decide
  have hcheck : Store.SameAnswer (.check ⟨⟨⟨7⟩, examplePair, []⟩, ⟨2, 0⟩⟩)
      openWorld.current.store widenedStore := by
    apply (hseparate _ _ rfl).2 ⟨7⟩ rfl
    intro e he
    obtain rfl := Option.some.inj he
    decide
  exact ⟨hchanged, hother, fun answers => hcheck.quiet answers 2 openWorld.current ()⟩

end World

end DelegatedAccess
