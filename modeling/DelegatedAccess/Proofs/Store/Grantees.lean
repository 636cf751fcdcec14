import DelegatedAccess.Proofs.Store.Key
import DelegatedAccess.Proofs.Store.Table
import DelegatedAccess.Store.Basic
import Mathlib.Data.List.Nodup

/-!
# The list of the grants of a pair

The grants of a pair are listed from all entries whose keys begin with the key of the pair, and
a single grant is looked up under its own key. The two agree on every store, whatever bytes it
holds. A key that begins with the key of a pair is either the key of a grant of that pair, or has
another length and is passed over.

The main result of this module is that the list is the only one that holds exactly the grants that
are looked up, in the order of their entities.
-/

namespace DelegatedAccess

/-- No number of an entity is larger than that of every entity. -/
theorem Entity.toNat_le_any (e : Entity) :
  e.toNat ≤ any.toNat
  := Nat.le_of_lt_succ e.id.toNat_lt

namespace Store

/-- An entry under the key of a pair is listed when its key is that of a grant and its value can
be read. -/
theorem readEntry_eq_some_iff {p : Pair} {k v : Bytes} (h : p.key.isPrefixOf k = true)
    (e : Entity) (g : Grant) :
  (do
    let e' ← Entity.ofGrantKey? k
    let g' ← Grant.decode? v
    return (e', g') : Option (Entity × Grant)) = some (e, g) ↔
    k = p.grantKey e ∧ Grant.decode? v = some g
  := by
  rw [← Entity.ofGrantKey?_eq_some_iff h]
  cases Entity.ofGrantKey? k with
  | none => simp
  | some f => cases Grant.decode? v <;> simp

/-- The grants that are listed are those that are looked up. -/
theorem mem_grantees_iff (s : Store) {p : Pair} {e : Entity} {g : Grant} :
  (e, g) ∈ s.grantees p ↔ s.grant? p e = some g
  := by
  rw [grantees, List.mem_filterMap, grant?, Option.bind_eq_some_iff]
  constructor
  · rintro ⟨⟨k, v⟩, hmem, hread⟩
    obtain ⟨hbegin, hv⟩ := s.grants.mem_withPrefix_iff.mp hmem
    obtain ⟨rfl, hdecode⟩ := (readEntry_eq_some_iff hbegin e g).mp hread
    exact ⟨v, hv, hdecode⟩
  · rintro ⟨v, hv, hdecode⟩
    have hbegin : p.key.isPrefixOf (p.grantKey e) = true := Pair.key_isPrefixOf_grantKey_iff.mpr rfl
    refine ⟨(p.grantKey e, v), s.grants.mem_withPrefix_iff.mpr ⟨hbegin, hv⟩, ?_⟩
    exact (readEntry_eq_some_iff hbegin e g).mpr ⟨rfl, hdecode⟩

/-- Grants are listed in the order of their entities. -/
theorem pairwise_grantees (s : Store) (p : Pair) :
  (s.grantees p).Pairwise fun x y => x.1.toNat < y.1.toNat
  := by
  have hsorted : (s.grants.withPrefix p.key).Pairwise fun a b => a.1 < b.1 :=
    s.grants.sorted.filter _
  rw [grantees, List.pairwise_filterMap]
  apply hsorted.imp_of_mem
  rintro ⟨k, v⟩ ⟨k', v'⟩ hmem hmem' hlt ⟨e, g⟩ hread ⟨e', g'⟩ hread'
  obtain ⟨rfl, _⟩ := (readEntry_eq_some_iff (s.grants.mem_withPrefix_iff.mp hmem).1 e g).mp hread
  obtain ⟨rfl, _⟩ :=
    (readEntry_eq_some_iff (s.grants.mem_withPrefix_iff.mp hmem').1 e' g').mp hread'
  apply Pair.lt_of_grantKey_lt hlt

/-- No entity is listed twice. -/
theorem nodup_grantees (s : Store) (p : Pair) :
  ((s.grantees p).map Prod.fst).Nodup
  := by
  apply List.pairwise_map.mpr
  apply (s.pairwise_grantees p).imp
  intro x y hlt heq
  rw [heq] at hlt
  exact Nat.lt_irrefl _ hlt

/-- Nothing is listed after the grant to every entity. -/
theorem eq_nil_of_grantees_eq_append {s : Store} {p : Pair} {before after : List (Entity × Grant)}
    {g : Grant} (h : s.grantees p = before ++ (.any, g) :: after) :
  after = []
  := by
  have hsorted := s.pairwise_grantees p
  rw [h] at hsorted
  have hafter := (List.pairwise_cons.mp (List.pairwise_append.mp hsorted).2.1).1
  rw [List.eq_nil_iff_forall_not_mem]
  rintro ⟨e, g'⟩ hmem
  exact absurd (hafter _ hmem) (Nat.not_lt.mpr e.toNat_le_any)

/-- The list of the grants of a pair is the only one in the order of entities that holds the grants
that are looked up. -/
theorem grantees_eq_iff (s : Store) (p : Pair) (list : List (Entity × Grant)) :
  s.grantees p = list ↔
    (list.Pairwise fun x y => x.1.toNat < y.1.toNat) ∧
      ∀ e g, (e, g) ∈ list ↔ s.grant? p e = some g
  := by
  constructor
  · rintro rfl
    exact ⟨s.pairwise_grantees p, fun e g => s.mem_grantees_iff⟩
  · rintro ⟨hsorted, hmem⟩
    have hperm : (s.grantees p).Perm list := by
      apply (List.perm_ext_iff_of_nodup _ _).mpr
      · rintro ⟨e, g⟩
        rw [mem_grantees_iff, hmem]
      · apply (s.nodup_grantees p).of_map
      · apply hsorted.imp
        rintro x _ hlt rfl
        exact Nat.lt_irrefl _ hlt
    apply hperm.eq_of_pairwise _ (s.pairwise_grantees p) hsorted
    intro x y _ _ hlt hlt'
    exact absurd (Nat.lt_trans hlt hlt') (Nat.lt_irrefl _)

/-- No grants of a pair are listed when there are none. -/
theorem grantees_eq_nil_iff (s : Store) {p : Pair} :
  s.grantees p = [] ↔ ∀ e, s.grant? p e = none
  := by
  rw [List.eq_nil_iff_forall_not_mem]
  constructor
  · intro hnone e
    rw [Option.eq_none_iff_forall_ne_some]
    intro g hg
    exact hnone (e, g) (s.mem_grantees_iff.mpr hg)
  · rintro hnone ⟨e, g⟩ hmem
    have hg := s.mem_grantees_iff.mp hmem
    rw [hnone e] at hg
    contradiction

/-! ### Entries that are no grants -/

/-- What is kept under a key that is not the key of a grant of a pair is not listed for it. -/
theorem grantees_insert_of_ne (s : Store) {p : Pair} {k : Bytes} (hk : ∀ e, k ≠ p.grantKey e)
    (v : Bytes) :
  { s with grants := s.grants.insert k v }.grantees p = s.grantees p
  := by
  rw [grantees_eq_iff]
  refine ⟨s.pairwise_grantees p, ?_⟩
  intro e g
  rw [mem_grantees_iff, grant?, grant?, Table.get?_insert, if_neg (Ne.symm (hk e))]

/-- What cannot be read under the key of a grant is not listed, and nor is what was there before. -/
theorem grantees_insert_of_decode? (s : Store) (p : Pair) (e : Entity) {v : Bytes}
    (hv : Grant.decode? v = none) :
  { s with grants := s.grants.insert (p.grantKey e) v }.grantees p =
    (s.grantees p).filter fun x => x.1 ≠ e
  := by
  rw [grantees_eq_iff]
  refine ⟨(s.pairwise_grantees p).filter _, ?_⟩
  intro f g
  rw [List.mem_filter, mem_grantees_iff, decide_eq_true_iff, grant?, grant?, Table.get?_insert]
  split
  next heq =>
    obtain rfl := (Pair.grantKey_injective heq).2
    rw [Option.bind_some, hv]
    simp
  next hne =>
    rw [and_iff_left]
    rintro rfl
    exact hne rfl

end Store

end DelegatedAccess
