import DelegatedAccess.Json.Kind
import DelegatedAccess.Proofs.Json.Reading

/-!
# Values of an expected kind are read

A reader of values of some kind takes from a tree what the tree holds of that kind, and fails on a
tree of another kind.
-/

namespace DelegatedAccess.Json

variable {α β : Type}

/-! ### What is held by a tree -/

/-- The natural number below a bound that a tree holds. -/
def Tree.natural? (bound : Nat) : Tree → Option Nat
  | number n => n.numeral.natural?.filter fun k => decide (k < bound)
  | _ => none

/-- The number of 8 bits that a tree holds. -/
def Tree.byte? (t : Tree) : Option UInt8 :=
  (t.natural? UInt8.size).map UInt8.ofNat

/-- The number of 64 bits that a tree holds. -/
def Tree.word? (t : Tree) : Option UInt64 :=
  (t.natural? UInt64.size).map UInt64.ofNat

/-- The number of values of 128 bits. -/
def wideSize : Nat :=
  1 <<< 128

/-- The number of 128 bits that a tree holds. -/
def Tree.wide? (t : Tree) : Option DelegatedAccess.Value :=
  (t.natural? wideSize).map (BitVec.ofNat 128)

/-- The text that a tree holds. -/
def Tree.string? : Tree → Option String
  | text s => some s.string
  | _ => none

/-- The array that a tree holds, whose items hold values of some kind. -/
def Tree.array? (take? : Tree → Option α) : Tree → Option (List α)
  | array items _ => items.mapM fun item => take? item.2
  | _ => none

/-- What a tree holds that may be null. -/
def Tree.nullable? (take? : Tree → Option α) : Tree → Option (Option α)
  | null => some none
  | t => (take? t).map some

/-- A text that goes on with the rest of a number. -/
def IsCut (cs : List Char) : Prop :=
  ∃ c, cs.head? = some c ∧ (c = '.' ∨ c = 'e' ∨ c = 'E')

/-- A reader takes from every tree what the tree holds. It may take the whole part of a number that
goes on, and leave the rest. -/
def Reads (reader : JsonReader α) (take? : Tree → Option α) : Prop :=
  ∀ (b : Blanks) (t : Tree) (rest : List Char), Follows rest →
    reader.result? (b.1 ++ (t.chars ++ rest)) = (take? t).map (·, rest) ∨
      take? t = none ∧ ∃ a cs, reader.result? (b.1 ++ (t.chars ++ rest)) = some (a, cs) ∧ IsCut cs

/-- No blanks. -/
def noBlanks : Blanks :=
  ⟨[], fun _ h => nomatch h⟩

namespace Reads

variable {reader : JsonReader α} {take? : Tree → Option α}

/-- A tree may be read without blanks before it. -/
theorem next (h : Reads reader take?) (t : Tree) {rest : List Char} (hrest : Follows rest) :
  reader.result? (t.chars ++ rest) = (take? t).map (·, rest) ∨
    take? t = none ∧ ∃ a cs, reader.result? (t.chars ++ rest) = some (a, cs) ∧ IsCut cs
  := h noBlanks t rest hrest

/-- What is made of a value is made of what the tree holds. -/
theorem map (h : Reads reader take?) (f : α → β) :
  Reads (do return f (← reader)) fun t => (take? t).map f
  := by
  intro b t rest hrest
  rcases h b t rest hrest with heq | ⟨hnone, a, cs, heq, hcut⟩
  · left
    dsimp only
    rw [Reader.result?_bind, heq]
    cases take? t <;> rfl
  · right
    dsimp only
    refine ⟨by rw [hnone, Option.map_none], f a, cs, ?_, hcut⟩
    rw [Reader.result?_bind, heq]
    rfl

end Reads

/-! ### Refusals -/

/-- What comes next is refused, whatever it is. -/
@[simp] theorem result?_refuse (cs : List Char) :
  (refuse : JsonReader α).result? cs = none
  := by
  have hunfit : ∀ {γ : Type} (m : JsonReader γ),
      (do let _ ← m; unfit : JsonReader α).result? cs = none := by
    intro γ m
    rw [Reader.result?_bind]
    cases m.result? cs <;> rfl
  rw [refuse, Reader.result?_bind, Reader.result?_peek?, Option.bind_some]
  dsimp only
  split
  · apply hunfit
  · apply hunfit
  · apply hunfit
  · apply hunfit
  · rfl
  · rfl
  · split
    · apply hunfit
    · rfl
  · rfl

/-! ### Numbers -/

/-- A natural number below a bound of at most 64 bits is read. -/
theorem reads_natural {bound : Nat} (hbound : bound ≤ UInt64.size) :
  Reads (natural bound) (Tree.natural? bound)
  := by
  intro b t rest hrest
  left
  rw [natural, result?_peek_tree]
  dsimp only
  rw [t.startsNumber_initial]
  cases t with
  | number n =>
      rw [Tree.isNumber, if_pos rfl, Reader.result?_bind, Tree.chars, result?_number n hrest,
        Tree.natural?]
      cases hnatural : n.numeral.natural? with
      | none => split <;> simp [hnatural]
      | some k =>
          by_cases hk : k < bound
          · have hrange := not_isOutOfRange hnatural (Nat.lt_of_lt_of_le hk hbound)
            simp [hrange, hnatural, hk, Option.filter_some]
          · split <;> simp [hnatural, hk, Option.filter_some]
  | null => apply result?_refuse
  | bool x => apply result?_refuse
  | text s => apply result?_refuse
  | array items closing => apply result?_refuse
  | object members closing => apply result?_refuse

/-- A number of 8 bits is read. -/
theorem reads_byte :
  Reads byte Tree.byte?
  := (reads_natural (by decide)).map UInt8.ofNat

/-- A number of 64 bits is read. -/
theorem reads_word :
  Reads word Tree.word?
  := (reads_natural (Nat.le_refl _)).map UInt64.ofNat

/-- Nothing but digits begins with a whole part. -/
theorem result?_wholeDigits_of_not_isDigit {c : Char} (hc : c.isDigit = false) (cs : List Char) :
  wholeDigits.result? (c :: cs) = none
  := by
  simp [wholeDigits, digits, hc]

/-- A number that is written by digits alone is a natural number, and no other is. -/
theorem natural?_numeral (n : Figures) :
  n.numeral.natural? =
    if n.isNegative ∨ n.point ≠ [] ∨ n.power ≠ [] then none
    else some (Decimal.value n.whole.chars)
  := by
  rw [Numeral.natural?]
  congr 1
  rw [Figures.numeral, Figures.point, Figures.power]
  cases n.fraction <;> cases n.exponent <;> simp [Exponent.chars]

/-- Whatever comes after the whole part of a number is the rest of the number. -/
theorem isCut_of_ne_nil {n : Figures} (h : n.point ≠ [] ∨ n.power ≠ []) (rest : List Char) :
  IsCut (n.point ++ (n.power ++ rest))
  := by
  cases hpoint : n.point with
  | cons c cs =>
      have hc : c = '.' := by
        rw [Figures.point] at hpoint
        cases hfraction : n.fraction with
        | none => simp [hfraction] at hpoint
        | some ds =>
            rw [hfraction] at hpoint
            exact (List.cons.inj hpoint).1.symm
      exact ⟨c, rfl, Or.inl hc⟩
  | nil =>
      have hpower : n.power ≠ [] := h.resolve_left fun hne => hne hpoint
      rw [Figures.power] at hpower ⊢
      cases hexponent : n.exponent with
      | none => simp [hexponent] at hpower
      | some e => exact ⟨e.letter, rfl, Or.inr e.isLetter⟩

/-- A number fits in 128 bits if it is below the number of their values. -/
theorem toNat_ofNat_eq_iff {k : Nat} :
  (BitVec.ofNat 128 k).toNat = k ↔ k < wideSize
  := by
  rw [BitVec.toNat_ofNat, wideSize, Nat.one_shiftLeft]
  constructor
  · intro h
    rw [← h]
    exact Nat.mod_lt _ (Nat.two_pow_pos 128)
  · exact Nat.mod_eq_of_lt

/-- A number of 128 bits is read by its digits. -/
theorem reads_wide :
  Reads wide Tree.wide?
  := by
  intro b t rest hrest
  rw [wide, Reader.result?_bind, result?_skipBlanks_tree, Option.bind_some, Reader.result?_bind]
  have hfail : ∀ {c : Char} {cs : List Char}, t.chars = c :: cs → c.isDigit = false →
      wholeDigits.result? (t.chars ++ rest) = none := by
    intro c cs hcs hc
    rw [hcs, List.cons_append, result?_wholeDigits_of_not_isDigit hc]
  cases hnumber : t.isNumber with
  | false =>
      left
      obtain ⟨cs, hcs⟩ := t.exists_cons
      have hstarts := t.startsNumber_initial
      rw [hnumber, startsNumber, Bool.or_eq_false_iff] at hstarts
      have hnone : t.wide? = none := by
        cases t with
        | number n => contradiction
        | _ => rfl
      rw [hfail hcs hstarts.2, hnone]
      rfl
  | true =>
      obtain ⟨n, rfl⟩ : ∃ n, t = .number n := by
        cases t with
        | number n => exact ⟨n, rfl⟩
        | _ => contradiction
      rw [Tree.wide?, Tree.natural?, natural?_numeral]
      cases hnegative : n.isNegative with
      | true =>
          left
          have hchars : (Tree.number n).chars = '-' :: (n.whole.chars ++ (n.point ++ n.power)) := by
            rw [Tree.chars, Figures.chars, Figures.sign, hnegative]
            rfl
          rw [hfail hchars rfl]
          simp
      | false =>
          have hchars : (Tree.number n).chars ++ rest =
              n.whole.chars ++ (n.point ++ (n.power ++ rest)) := by
            rw [Tree.chars, Figures.chars, Figures.sign, hnegative]
            simp
          rw [hchars, result?_wholeDigits n fun c hc => head?_point n hrest hc, Option.bind_some]
          dsimp only
          by_cases hvalue : Decimal.value n.whole.chars < wideSize
          · rw [if_pos (toNat_ofNat_eq_iff.mpr hvalue)]
            by_cases hmore : n.point ≠ [] ∨ n.power ≠ []
            · right
              exact ⟨by simp [hmore], _, _, rfl, isCut_of_ne_nil hmore rest⟩
            · left
              obtain ⟨hpoint, hpower⟩ := not_or.mp hmore
              have hpoint := Classical.not_not.mp hpoint
              have hpower := Classical.not_not.mp hpower
              simp [hpoint, hpower, hvalue, Option.filter_some]
          · left
            rw [if_neg fun h => hvalue (toNat_ofNat_eq_iff.mp h)]
            split <;> simp [hvalue, Option.filter_some]

/-! ### Texts and null -/

/-- A text is read. -/
theorem reads_textValue :
  Reads textValue Tree.string?
  := by
  intro b t rest hrest
  left
  rw [textValue, result?_peek_tree]
  cases t with
  | text s =>
      rw [Tree.initial, if_pos rfl, Tree.chars, result?_text]
      rfl
  | number n =>
      have hquote : (Tree.number n).initial ≠ '"' := Tree.number_initial_ne n rfl
      rw [if_neg (by simpa using hquote), result?_refuse]
      rfl
  | null => apply result?_refuse
  | bool x => cases x <;> apply result?_refuse
  | array items closing => apply result?_refuse
  | object members closing => apply result?_refuse

/-- A value is read that may be null. -/
theorem Reads.nullable {reader : JsonReader α} {take? : Tree → Option α}
    (h : Reads reader take?) :
  Reads (nullable reader) (Tree.nullable? take?)
  := by
  intro b t rest hrest
  rw [Json.nullable, result?_peek_tree]
  have hvalue := (h.map some).next t hrest
  have hother : t.initial ≠ 'n' → t.nullable? take? = (take? t).map some := by
    intro hinitial
    cases t with
    | null => exact absurd rfl hinitial
    | _ => rfl
  cases t with
  | null =>
      left
      rfl
  | number n =>
      have hinitial : (Tree.number n).initial ≠ 'n' := Tree.number_initial_ne n rfl
      rw [hother hinitial, if_neg (by simpa using hinitial)]
      exact hvalue
  | bool x => cases x <;> exact hvalue
  | text s => exact hvalue
  | array items closing => exact hvalue
  | object members closing => exact hvalue

/-! ### Arrays -/

/-- What goes on with blanks and a comma or a closing bracket may follow a value. -/
theorem follows_blanks (b : Blanks) {c : Char} (hc : c = ',' ∨ c = ']' ∨ c = '}')
    (rest : List Char) :
  Follows (b.1 ++ c :: rest)
  := by
  obtain ⟨cs, hcs⟩ := b
  intro d hd
  cases cs with
  | nil =>
      obtain rfl := Option.some.inj hd
      exact Or.inr hc
  | cons x xs =>
      obtain rfl := Option.some.inj hd
      exact Or.inl (hcs x List.mem_cons_self)

/-- The items after the first may follow a value. -/
theorem follows_items (items : List (Gap × Tree)) (closing : Blanks) (rest : List Char) :
  Follows (itemChars false items ++ (closing.1 ++ ']' :: rest))
  := by
  cases items with
  | nil => exact follows_blanks closing (Or.inr (Or.inl rfl)) rest
  | cons item items =>
      rw [itemChars, Gap.chars, List.append_assoc, List.append_assoc]
      exact follows_blanks item.1.before (Or.inl rfl) _

/-- An item comes after a gap, whatever it is. -/
theorem result?_nextItem?_tree (g : Gap) (isFirst : Bool) (t : Tree) {closing : Char}
    (hclosing : closing = ']' ∨ closing = '}') (rest : List Char) :
  (nextItem? closing isFirst).result? (g.chars isFirst ++ (t.chars ++ rest)) =
    some (true, t.chars ++ rest)
  := by
  obtain ⟨cs, hcs⟩ := t.exists_cons
  obtain ⟨hblank, _, hbracket, hbrace⟩ := t.initial_ne
  rw [hcs, List.cons_append]
  rcases hclosing with rfl | rfl
  · exact result?_nextItem?_gap g isFirst hblank hbracket (by decide) _
  · exact result?_nextItem?_gap g isFirst hblank hbrace (by decide) _

/-- No item comes after a number that goes on. -/
theorem result?_nextItem?_of_isCut {cs : List Char} (h : IsCut cs) {closing : Char}
    (hclosing : closing = ']' ∨ closing = '}') :
  (nextItem? closing false).result? cs = none
  := by
  obtain ⟨c, hc, hcut⟩ := h
  obtain ⟨cs, rfl⟩ : ∃ ds, cs = c :: ds := by
    cases cs with
    | nil => contradiction
    | cons d ds =>
        obtain rfl := Option.some.inj hc
        exact ⟨ds, rfl⟩
  rcases hcut with rfl | rfl | rfl <;> rcases hclosing with rfl | rfl <;> rfl

section

variable {reader : JsonReader α} {take? : Tree → Option α}

/-- An item of an array is read by the reader of its value. -/
theorem result?_item? (reader : JsonReader α) (g : Gap) (isFirst : Bool) (t : Tree)
    (rest : List Char) :
  (item? reader isFirst).result? (g.chars isFirst ++ (t.chars ++ rest)) =
    (reader.result? (t.chars ++ rest)).map fun x => (some x.1, x.2)
  := by
  rw [item?, Reader.result?_bind, result?_nextItem?_tree g isFirst t (Or.inl rfl),
    Option.bind_some]
  dsimp only
  rw [if_pos rfl, Reader.result?_bind]
  cases reader.result? (t.chars ++ rest) <;> rfl

/-- There is no item before the closing bracket. -/
theorem result?_item?_closing (reader : JsonReader α) (b : Blanks) (isFirst : Bool)
    (rest : List Char) :
  (item? reader isFirst).result? (b.1 ++ ']' :: rest) = some (none, ']' :: rest)
  := by
  rw [item?, Reader.result?_bind, result?_nextItem?_closing b isFirst rfl]
  rfl

/-- There is no item after a number that goes on. -/
theorem result?_item?_of_isCut (reader : JsonReader α) {cs : List Char} (h : IsCut cs) :
  (item? reader false).result? cs = none
  := by
  rw [item?, Reader.result?_bind, result?_nextItem?_of_isCut h (Or.inl rfl)]
  rfl

/-- As many items as there are can be read. -/
theorem result?_repeat_items (h : Reads reader take?) (items : List (Gap × Tree)) (closing : Blanks)
    (rest : List Char) {n : Nat} (hn : items.length < n) :
  (Reader.repeatUpTo .malformed (item? reader false) n).result?
      (itemChars false items ++ (closing.1 ++ ']' :: rest)) =
    (items.mapM fun item => take? item.2).map (·, ']' :: rest)
  := by
  induction items generalizing n with
  | nil =>
      cases n with
      | zero => contradiction
      | succ n =>
          exact Reader.result?_repeatUpTo_none (result?_item?_closing reader closing false rest) _ n
  | cons item items ih =>
      obtain ⟨g, t⟩ := item
      cases n with
      | zero => contradiction
      | succ n =>
          rw [itemChars, List.append_assoc, List.append_assoc]
          have hitem := result?_item? reader g false t
            (itemChars false items ++ (closing.1 ++ ']' :: rest))
          rw [List.mapM_cons]
          rcases h.next t (follows_items items closing rest) with
            heq | ⟨hnone, a, cs, heq, hcut⟩
          · rw [heq] at hitem
            dsimp only
            cases ht : take? t with
            | none =>
                rw [ht] at hitem
                exact Reader.result?_repeatUpTo_of_none hitem _ _
            | some a =>
                rw [ht] at hitem
                rw [Reader.result?_repeatUpTo_some hitem, ih (Nat.lt_of_succ_lt_succ hn)]
                cases items.mapM fun item => take? item.2 <;> rfl
          · rw [heq] at hitem
            dsimp only
            rw [Reader.result?_repeatUpTo_some hitem, hnone,
              Reader.result?_repeatUpTo_of_none (result?_item?_of_isCut reader hcut)]
            rfl

/-- An item takes some place. -/
theorem length_le_itemChars (items : List (Gap × Tree)) :
  items.length ≤ (itemChars false items).length
  := by
  induction items with
  | nil => exact Nat.le_refl 0
  | cons item items ih =>
      obtain ⟨cs, hcs⟩ := item.2.exists_cons
      rw [itemChars, hcs, List.length_append, List.length_append, List.length_cons,
        List.length_cons]
      omega

/-- The items of an array after the first are read up to the closing bracket. -/
theorem result?_otherItems (h : Reads reader take?) (a : α) (items : List (Gap × Tree))
    (closing : Blanks) (rest : List Char) :
  (do
    let as ← Reader.repeatUntilNone .malformed (item? reader false)
    expect "]"
    return a :: as : JsonReader (List α)).result?
      (itemChars false items ++ (closing.1 ++ ']' :: rest)) =
    (items.mapM fun item => take? item.2).map fun as => (a :: as, rest)
  := by
  have hlength := length_le_itemChars items
  have hitems : (Reader.repeatUntilNone .malformed (item? reader false)).result?
      (itemChars false items ++ (closing.1 ++ ']' :: rest)) =
      (items.mapM fun item => take? item.2).map (·, ']' :: rest) := by
    rw [Reader.repeatUntilNone, Reader.result?_bind, Reader.result?_get, Option.bind_some]
    apply result?_repeat_items h
    rw [List.length_append]
    omega
  rw [Reader.result?_bind, hitems]
  cases items.mapM fun item => take? item.2 with
  | none => rfl
  | some as =>
      rw [Option.map_some, Option.bind_some, Reader.result?_bind, result?_expect_cons ']' rest rfl]
      rfl

/-- No other items are read after a number that goes on. -/
theorem result?_otherItems_of_isCut (reader : JsonReader α) (a : α) {cs : List Char}
    (h : IsCut cs) :
  (do
    let as ← Reader.repeatUntilNone .malformed (item? reader false)
    expect "]"
    return a :: as : JsonReader (List α)).result? cs = none
  := by
  rw [Reader.result?_bind, Reader.repeatUntilNone, Reader.result?_bind, Reader.result?_get,
    Option.bind_some, Reader.result?_repeatUpTo_of_none (result?_item?_of_isCut reader h)]
  rfl

/-- An array of values is read. -/
theorem Reads.array (h : Reads reader take?) :
  Reads (array reader) (Tree.array? take?)
  := by
  intro b t rest hrest
  left
  rw [Json.array, Reader.result?_bind, result?_skipBlanks_tree, Option.bind_some,
    Reader.result?_bind, Reader.result?_skip?]
  cases t with
  | array items closing =>
      have hopening : ['['].isPrefixOf ((Tree.array items closing).chars ++ rest) = true := rfl
      have hdrop : ((Tree.array items closing).chars ++ rest).drop ['['].length =
          itemChars true items ++ (closing.1 ++ ']' :: rest) := by
        rw [Tree.chars]
        simp
      rw [if_pos hopening, Option.bind_some]
      dsimp only
      rw [if_pos rfl, hdrop, Reader.result?_bind, Tree.array?]
      cases items with
      | nil =>
          rw [itemChars, List.nil_append, result?_item?_closing, Option.bind_some]
          dsimp only
          rw [Reader.result?_bind, result?_expect_cons ']' rest rfl]
          rfl
      | cons item items =>
          obtain ⟨g, t⟩ := item
          rw [itemChars, List.append_assoc, List.append_assoc, result?_item?, List.mapM_cons]
          rcases h.next t (follows_items items closing rest) with
            heq | ⟨hnone, a, cs, heq, hcut⟩
          · rw [heq]
            dsimp only
            cases take? t with
            | none => rfl
            | some a =>
                rw [Option.map_some, Option.map_some, Option.bind_some]
                dsimp only
                rw [result?_otherItems h]
                cases items.mapM fun item => take? item.2 <;> rfl
          · rw [heq, hnone, Option.map_some, Option.bind_some]
            dsimp only
            rw [result?_otherItems_of_isCut reader a hcut]
            rfl
  | number n =>
      obtain ⟨c, cs, hcs, _, hstarts⟩ := n.exists_cons
      have hne : '[' ≠ c := by
        rintro rfl
        contradiction
      rw [Tree.chars, hcs, List.cons_append]
      simp [hne, Tree.array?]
  | null => apply result?_refuse
  | bool x => cases x <;> apply result?_refuse
  | text s => apply result?_refuse
  | object members closing => apply result?_refuse

end

end DelegatedAccess.Json
