import DelegatedAccess.Bytes

/-!
# Tables

A table is a finite map from byte strings, kept as a list of entries in the order of their
keys: the lexicographic order, in which a string comes before its extensions. A table is
determined by what it holds under each key.
-/

namespace DelegatedAccess

/-- A finite map from byte strings. -/
structure Table (α : Type) where
  /-- The keys with what they hold. -/
  entries : List (Bytes × α)
  /-- The keys increase, so that none occurs twice. -/
  sorted : entries.Pairwise fun a b => a.1 < b.1
deriving DecidableEq

namespace Table

variable {α : Type}

/-- The table without entries. -/
def empty : Table α :=
  ⟨[], .nil⟩

/-- What a table holds under a key. -/
def get? (t : Table α) (k : Bytes) : Option α :=
  t.entries.lookup k

/-- Whether a table holds anything under a key. -/
def contains (t : Table α) (k : Bytes) : Bool :=
  (t.get? k).isSome

/-- The entries whose keys begin with a byte string, in the order of their keys. -/
def withPrefix (t : Table α) (p : Bytes) : List (Bytes × α) :=
  t.entries.filter fun e => p.isPrefixOf e.1

/-- Puts a value under a key in a list of entries. -/
def put (k : Bytes) (v : α) : List (Bytes × α) → List (Bytes × α)
  | [] => [(k, v)]
  | e :: es =>
      if k < e.1 then (k, v) :: e :: es
      else if k = e.1 then (k, v) :: es
      else e :: put k v es

/-- An entry put in comes from the new entry or from those there were. -/
theorem mem_put {k : Bytes} {v : α} {es : List (Bytes × α)} {e : Bytes × α} (h : e ∈ put k v es) :
  e = (k, v) ∨ e ∈ es
  := by
  induction es with
  | nil => simpa [put] using h
  | cons x es ih =>
      rw [put] at h
      split at h
      · simpa using h
      · split at h <;> grind

/-- Putting a value in keeps the keys increasing. -/
theorem sorted_put (k : Bytes) (v : α) {es : List (Bytes × α)}
    (h : es.Pairwise fun a b => a.1 < b.1) :
  (put k v es).Pairwise fun a b => a.1 < b.1
  := by
  induction es with
  | nil => simp [put]
  | cons x es ih =>
      obtain ⟨hx, hes⟩ := List.pairwise_cons.mp h
      rw [put]
      split
      next hk =>
        refine List.pairwise_cons.mpr ⟨?_, h⟩
        intro e he
        rcases List.mem_cons.mp he with rfl | he
        · exact hk
        · exact List.lt_trans hk (hx e he)
      next hk =>
        split
        next heq =>
          refine List.pairwise_cons.mpr ⟨?_, hes⟩
          intro e he
          rw [heq]
          exact hx e he
        next hne =>
          refine List.pairwise_cons.mpr ⟨?_, ih hes⟩
          intro e he
          rcases mem_put he with rfl | he
          · rcases Decidable.em (x.1 < k) with hlt | hlt
            · exact hlt
            · exact absurd (List.le_antisymm hlt hk) hne
          · exact hx e he

/-- The table with a value put under a key. -/
def insert (t : Table α) (k : Bytes) (v : α) : Table α :=
  ⟨put k v t.entries, sorted_put k v t.sorted⟩

/-- The table without what it holds under a key. -/
def erase (t : Table α) (k : Bytes) : Table α :=
  ⟨t.entries.filter fun e => e.1 ≠ k, t.sorted.filter _⟩

/-! ### What a table holds -/

/-- Nothing is found under a key that is below those of all entries. -/
theorem lookup_of_lt {k : Bytes} {es : List (Bytes × α)} (h : ∀ e ∈ es, k < e.1) :
  es.lookup k = none
  := by
  induction es with
  | nil => rfl
  | cons x es ih =>
      have hne : ¬ k = x.1 := by
        intro heq
        exact List.lt_irrefl x.1 (heq ▸ h x List.mem_cons_self)
      rw [List.lookup_cons, beq_eq_false_iff_ne.mpr hne]
      exact ih fun e he => h e (List.mem_cons_of_mem x he)

/-- A table holds what was put in last under each key. -/
theorem get?_insert (t : Table α) (k : Bytes) (v : α) (k' : Bytes) :
  (t.insert k v).get? k' = if k' = k then some v else t.get? k'
  := by
  have key : ∀ es : List (Bytes × α), (put k v es).lookup k' =
      if k' = k then some v else es.lookup k' := by
    intro es
    induction es with
    | nil => grind [put]
    | cons x es ih => grind [put]
  exact key t.entries

/-- Under a key taken out a table holds nothing, and elsewhere what it held. -/
theorem get?_erase (t : Table α) (k k' : Bytes) :
  (t.erase k).get? k' = if k' = k then none else t.get? k'
  := by
  have key : ∀ es : List (Bytes × α), (es.filter fun e => e.1 ≠ k).lookup k' =
      if k' = k then none else es.lookup k' := by
    intro es
    induction es with
    | nil => grind
    | cons x es ih => grind
  exact key t.entries

/-- The empty table holds nothing. -/
@[simp] theorem get?_empty (k : Bytes) :
  (empty : Table α).get? k = none
  := rfl

/-- The entries of a table are the keys with what the table holds under them. -/
theorem mem_entries_iff (t : Table α) (k : Bytes) (v : α) :
  (k, v) ∈ t.entries ↔ t.get? k = some v
  := by
  have key : ∀ es : List (Bytes × α), (es.Pairwise fun a b => a.1 < b.1) →
      ((k, v) ∈ es ↔ es.lookup k = some v) := by
    intro es hes
    induction es with
    | nil => simp
    | cons x es ih =>
        obtain ⟨hx, hes⟩ := List.pairwise_cons.mp hes
        rcases Decidable.em (k = x.1) with rfl | hne
        · have hnot : (x.1, v) ∉ es := fun hmem => List.lt_irrefl _ (hx (x.1, v) hmem)
          rw [List.lookup_cons_self, List.mem_cons]
          grind
        · rw [List.lookup_cons, beq_eq_false_iff_ne.mpr hne, ← ih hes, List.mem_cons]
          grind
  exact key t.entries t.sorted

/-- Tables that hold the same under each key are equal. -/
theorem ext_get? {t u : Table α} (h : ∀ k, t.get? k = u.get? k) :
  t = u
  := by
  have key : ∀ es fs : List (Bytes × α), (es.Pairwise fun a b => a.1 < b.1) →
      (fs.Pairwise fun a b => a.1 < b.1) → (∀ k, es.lookup k = fs.lookup k) → es = fs := by
    intro es
    induction es with
    | nil =>
        intro fs _ _ h
        cases fs with
        | nil => rfl
        | cons y fs =>
            have := h y.1
            rw [List.lookup_cons_self] at this
            contradiction
    | cons x es ih =>
        intro fs hes hfs h
        cases fs with
        | nil =>
            have := h x.1
            rw [List.lookup_cons_self] at this
            contradiction
        | cons y fs =>
            obtain ⟨hx, hes⟩ := List.pairwise_cons.mp hes
            obtain ⟨hy, hfs⟩ := List.pairwise_cons.mp hfs
            have hxy : x.1 = y.1 := by
              apply Decidable.byContradiction
              intro hne
              rcases Decidable.em (x.1 < y.1) with hlt | hlt
              · have hnone : fs.lookup x.1 = none :=
                  lookup_of_lt fun e he => List.lt_trans hlt (hy e he)
                have := h x.1
                rw [List.lookup_cons_self, List.lookup_cons, beq_eq_false_iff_ne.mpr hne, hnone]
                  at this
                contradiction
              · have hlt' : y.1 < x.1 := by
                  apply Decidable.byContradiction
                  intro hge
                  exact hne (List.le_antisymm hge hlt)
                have hnone : es.lookup y.1 = none :=
                  lookup_of_lt fun e he => List.lt_trans hlt' (hx e he)
                have := h y.1
                rw [List.lookup_cons_self, List.lookup_cons,
                  beq_eq_false_iff_ne.mpr (Ne.symm hne), hnone] at this
                contradiction
            have hval : x.2 = y.2 := by
              have := h x.1
              rw [List.lookup_cons_self, hxy, List.lookup_cons_self] at this
              exact Option.some.inj this
            have hrest : es = fs := by
              apply ih fs hes hfs
              intro k
              rcases Decidable.em (k = x.1) with rfl | hne
              · rw [lookup_of_lt hx, lookup_of_lt (hxy ▸ hy)]
              · have := h k
                rwa [List.lookup_cons, List.lookup_cons, beq_eq_false_iff_ne.mpr hne,
                  beq_eq_false_iff_ne.mpr (hxy ▸ hne)] at this
            rw [hrest, Prod.ext hxy hval]
  obtain ⟨es, hes⟩ := t
  obtain ⟨fs, hfs⟩ := u
  congr
  exact key es fs hes hfs h

end Table

end DelegatedAccess
