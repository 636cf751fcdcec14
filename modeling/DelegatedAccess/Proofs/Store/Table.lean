import DelegatedAccess.Store.Table

/-!
# Parts of tables

A change of a table under a key that does not begin with a byte string leaves the entries
whose keys begin with it as they are. A table of entries of one kind stays one when such
entries are put in, or any are taken out.
-/

namespace DelegatedAccess.Table

variable {α : Type}

/-- What is found under a key is also found among the entries with a prefix of it. -/
theorem mem_withPrefix_iff (t : Table α) {p k : Bytes} {v : α} :
  (k, v) ∈ t.withPrefix p ↔ p.isPrefixOf k = true ∧ t.get? k = some v
  := by
  rw [withPrefix, List.mem_filter, mem_entries_iff, And.comm]

/-- The entries with a prefix do not depend on what is put under other keys. -/
theorem withPrefix_insert (t : Table α) {p k : Bytes} (v : α) (h : p.isPrefixOf k = false) :
  (t.insert k v).withPrefix p = t.withPrefix p
  := by
  have key : ∀ es : List (Bytes × α), (put k v es).filter (fun e => p.isPrefixOf e.1) =
      es.filter (fun e => p.isPrefixOf e.1) := by
    intro es
    induction es with
    | nil => simp [put, h]
    | cons x es ih =>
        rw [put]
        split
        · rw [List.filter_cons_of_neg (by simp [h])]
        · split
          next heq =>
            subst heq
            rw [List.filter_cons_of_neg (by simp [h]), List.filter_cons_of_neg (by simp [h])]
          next => rw [List.filter_cons, List.filter_cons, ih]
  apply key

/-- The entries with a prefix do not depend on what is taken out under other keys. -/
theorem withPrefix_erase (t : Table α) {p k : Bytes} (h : p.isPrefixOf k = false) :
  (t.erase k).withPrefix p = t.withPrefix p
  := by
  rw [withPrefix, erase, List.filter_filter, withPrefix]
  apply List.filter_congr
  intro e _
  rw [Bool.and_eq_left_iff_imp]
  intro he
  rw [decide_eq_true_iff]
  rintro rfl
  rw [h] at he
  contradiction

/-! ### Tables of a kind -/

/-- Everything in a table is of a kind. -/
def Only (P : Bytes → α → Prop) (t : Table α) : Prop :=
  ∀ k v, t.get? k = some v → P k v

namespace Only

variable {P : Bytes → α → Prop} {t : Table α}

/-- Nothing in the empty table is of a wrong kind. -/
theorem empty :
  (empty : Table α).Only P
  := by
  intro k v h
  contradiction

/-- A value of the right kind can be put in. -/
theorem insert (h : t.Only P) {k : Bytes} {v : α} (hv : P k v) :
  (t.insert k v).Only P
  := by
  intro k' v' h'
  rw [get?_insert] at h'
  split at h'
  next hk =>
    obtain rfl := Option.some.inj h'
    rwa [hk]
  next => apply h k' v' h'

/-- Anything can be taken out. -/
theorem erase (h : t.Only P) (k : Bytes) :
  (t.erase k).Only P
  := by
  intro k' v' h'
  rw [get?_erase] at h'
  split at h'
  next => contradiction
  next => apply h k' v' h'

end Only

end DelegatedAccess.Table
