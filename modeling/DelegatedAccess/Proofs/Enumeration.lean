import DelegatedAccess.Proofs.Run
import DelegatedAccess.Proofs.Store.Grantees

/-!
# Asking who is granted a pair

The question who is granted a pair is answered from all entries that the key of the pair begins,
the question what one entity is granted from the entry of that entity. No assumption is made about
what the store holds.

The main result of this module is that the two questions agree on every store, and that neither
entries under other keys nor values that cannot be read make a difference to the list.
-/

namespace DelegatedAccess.World

variable {η ω : Type}

/-- What one entity is granted is looked up in the store. -/
theorem answer_grant_run (behave : Behaviour η ω) (now : UInt64) (e : Entity) (p : Pair)
    (w : World η ω) :
  (answer behave now (.grant e p)).run.run w =
    (.ok (.grant (w.current.store.grant? p e)), w)
  := by
  rw [answer, read_run]
  rfl

/-- Who is granted a pair is listed from the store. -/
theorem answer_grantees_run (behave : Behaviour η ω) (now : UInt64) (p : Pair) (w : World η ω) :
  (answer behave now (.grantees p)).run.run w =
    (.ok (.grantees (w.current.store.grantees p)), w)
  := by
  rw [answer, read_run]
  rfl

/-- Whatever a store holds, the grants of a pair that are listed are those of which one is told
when one asks for single entities. Each entity is listed once, in increasing order, so that every
entity comes last. The list depends neither on what is kept under keys of other lengths or
of other pairs, nor on values that cannot be read. -/
theorem grantees_exact_and_ordered (behave : Behaviour η ω) (now : UInt64) (w : World η ω)
    (p : Pair) :
  ∃ list,
    (answer behave now (.grantees p)).run.run w = (.ok (.grantees list), w) ∧
    (∀ e g, (e, g) ∈ list ↔
      (answer behave now (.grant e p)).run.run w = (.ok (.grant (some g)), w)) ∧
    (list.map Prod.fst).Nodup ∧
    (list.Pairwise fun x y => x.1.toNat < y.1.toNat) ∧
    (∀ before g after, list = before ++ (.any, g) :: after → after = []) ∧
    (∀ k v, k.length ≠ 48 ∨ p.key.isPrefixOf k = false →
      { w.current.store with grants := w.current.store.grants.insert k v }.grantees p = list) ∧
    ∀ e v, Grant.decode? v = none →
      { w.current.store with
        grants := w.current.store.grants.insert (p.grantKey e) v }.grantees p =
        list.filter fun x => x.1 ≠ e
  := by
  refine ⟨w.current.store.grantees p, answer_grantees_run behave now p w, ?_,
    w.current.store.nodup_grantees p, w.current.store.pairwise_grantees p, ?_, ?_, ?_⟩
  · intro e g
    rw [Store.mem_grantees_iff, answer_grant_run]
    constructor
    · intro hg
      rw [hg]
    · intro hanswer
      exact Answer.grant.inj (Except.ok.inj (congrArg Prod.fst hanswer))
  · intro before g after
    apply Store.eq_nil_of_grantees_eq_append
  · intro k v hk
    apply Store.grantees_insert_of_ne
    intro e heq
    have hkey := Pair.exists_eq_grantKey_iff.mp ⟨e, heq⟩
    rcases hk with hlength | hbegin
    · exact hlength hkey.1
    · rw [hkey.2] at hbegin
      contradiction
  · intro e v hv
    apply Store.grantees_insert_of_decode? _ p e hv

end DelegatedAccess.World
