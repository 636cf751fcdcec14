import DelegatedAccess.Proofs.Json.Syntax
import DelegatedAccess.Proofs.Text.Reader

/-!
# Numbers and texts are read as they are written

A number or a text is read from each of the forms in which it can be written, up to what follows it.
-/

namespace DelegatedAccess.Json

/-! ### Blanks and commas -/

/-- Blanks are dropped up to a character that is none. -/
theorem dropWhile_blanks (b : Blanks) {c : Char} (hc : isBlank c = false) (rest : List Char) :
  (b.1 ++ c :: rest).dropWhile isBlank = c :: rest
  := by
  rw [List.dropWhile_append_of_pos b.2, List.dropWhile_cons_of_neg (by simp [hc])]

@[simp] theorem result?_skipBlanks (cs : List Char) :
  skipBlanks.result? cs = some ((), cs.dropWhile isBlank)
  := rfl

@[simp] theorem result?_malformed {α : Type} (cs : List Char) :
  (malformed : JsonReader α).result? cs = none
  := rfl

@[simp] theorem result?_unfit {α : Type} (cs : List Char) :
  (unfit : JsonReader α).result? cs = none
  := rfl

/-- Blanks in front of a value are passed over. -/
theorem result?_skipBlanks_tree (b : Blanks) (t : Tree) (rest : List Char) :
  skipBlanks.result? (b.1 ++ (t.chars ++ rest)) = some ((), t.chars ++ rest)
  := by
  obtain ⟨cs, hcs⟩ := t.exists_cons
  rw [result?_skipBlanks, hcs, List.cons_append, dropWhile_blanks b t.initial_ne.1]

/-- After blanks, what is done about a value depends on its first character. -/
theorem result?_peek_tree {α : Type} (f : Option Char → JsonReader α) (b : Blanks) (t : Tree)
    (rest : List Char) :
  (do skipBlanks; f (← Reader.peek?) : JsonReader α).result? (b.1 ++ (t.chars ++ rest)) =
    (f (some t.initial)).result? (t.chars ++ rest)
  := by
  obtain ⟨cs, hcs⟩ := t.exists_cons
  rw [Reader.result?_bind, result?_skipBlanks_tree, Option.bind_some, Reader.result?_bind,
    Reader.result?_peek?, Option.bind_some, hcs]
  rfl

/-- A character that must come next. -/
theorem result?_expect_cons (c : Char) (rest : List Char) {word : String} (h : word.toList = [c]) :
  (expect word).result? (c :: rest) = some ((), rest)
  := by
  rw [expect, Reader.result?_expect, h]
  simp

/-- A character that must come next and does not. -/
theorem result?_expect_of_ne {c d : Char} (hne : c ≠ d) (rest : List Char) {word : String}
    (h : word.toList = [d]) :
  (expect word).result? (c :: rest) = none
  := by
  rw [expect, Reader.result?_expect, h]
  simp [hne.symm]

/-- An item comes after a gap. -/
theorem result?_nextItem?_gap (g : Gap) (isFirst : Bool) {closing c : Char}
    (hc : isBlank c = false) (hne : c ≠ closing) (hclosing : closing ≠ ',') (rest : List Char) :
  (nextItem? closing isFirst).result? (g.chars isFirst ++ c :: rest) = some (true, c :: rest)
  := by
  cases isFirst with
  | true =>
      have hgap : (g.chars true ++ c :: rest).dropWhile isBlank = c :: rest := by
        change ((g.before.1 ++ g.after.1) ++ c :: rest).dropWhile isBlank = _
        rw [List.append_assoc, List.dropWhile_append_of_pos g.before.2, dropWhile_blanks _ hc]
      simp [nextItem?, hgap, hne]
  | false =>
      have hgap : (g.chars false ++ c :: rest).dropWhile isBlank =
          ',' :: (g.after.1 ++ c :: rest) := by
        change ((g.before.1 ++ ',' :: g.after.1) ++ c :: rest).dropWhile isBlank = _
        rw [List.append_assoc, List.cons_append, dropWhile_blanks _ (by decide)]
      have hcomma : (expect ",").result? (',' :: (g.after.1 ++ c :: rest)) =
          some ((), g.after.1 ++ c :: rest) := result?_expect_cons ',' _ rfl
      simp [nextItem?, hgap, hclosing.symm, hcomma, dropWhile_blanks _ hc, hne]

/-- No item comes before a closing bracket. -/
theorem result?_nextItem?_closing (b : Blanks) (isFirst : Bool) {closing : Char}
    (hclosing : isBlank closing = false) (rest : List Char) :
  (nextItem? closing isFirst).result? (b.1 ++ closing :: rest) = some (false, closing :: rest)
  := by
  simp [nextItem?, dropWhile_blanks b hclosing]

/-! ### Digits -/

/-- Digits are read up to a character that is none. -/
theorem result?_digits (ds : Digits) {rest : List Char}
    (h : ∀ c, rest.head? = some c → c.isDigit = false) :
  digits.result? (ds.chars ++ rest) = some (ds.chars, rest)
  := by
  obtain ⟨htake, hdrop⟩ := Reader.span_append ds.isDigit h
  rw [digits, Reader.result?_bind, Reader.result?_takeWhile, Option.bind_some]
  dsimp only
  rw [htake, hdrop]
  obtain ⟨c, cs, hcs, _⟩ := ds.exists_cons
  rw [hcs]
  rfl

/-- The whole part of a number is read up to a character that is no digit. -/
theorem result?_wholeDigits (n : Figures) {rest : List Char}
    (h : ∀ c, rest.head? = some c → c.isDigit = false) :
  wholeDigits.result? (n.whole.chars ++ rest) = some (n.whole.chars, rest)
  := by
  rw [wholeDigits, Reader.result?_bind, result?_digits n.whole h, Option.bind_some]
  dsimp only
  split
  next c cs hzero => exact absurd hzero (n.isPlain c cs)
  next => rfl

/-! ### Numbers -/

/-- A power of ten is read up to what may follow a number. -/
theorem result?_exponent?_some (e : Exponent) {rest : List Char} (h : Follows rest) :
  exponent?.result? (e.chars ++ rest) = some (some e.value, rest)
  := by
  have hdigits := result?_digits e.digits fun c hc => (h.head?_ne hc).1
  obtain ⟨letter, hletter, sign, hsign, ds⟩ := e
  obtain ⟨c, cs, hcs, hdigit⟩ := ds.exists_cons
  have hminus : c ≠ '-' := by
    rintro rfl
    contradiction
  have hplus : c ≠ '+' := by
    rintro rfl
    contradiction
  dsimp only at hdigits
  rw [hcs, List.cons_append] at hdigits
  rcases hletter with rfl | rfl <;> rcases hsign with rfl | rfl | rfl <;>
    simp [exponent?, Exponent.chars, Exponent.value, hcs, hminus.symm, hplus.symm, hdigits]

/-- No power of ten is read where there is none. -/
theorem result?_exponent?_none {rest : List Char} (h : Follows rest) :
  exponent?.result? rest = some (none, rest)
  := by
  rw [exponent?, Reader.result?_bind, Reader.result?_peek?, Option.bind_some]
  dsimp only
  split
  next hc => exact absurd rfl (h.head?_ne hc).2.2.1
  next hc => exact absurd rfl (h.head?_ne hc).2.2.2
  next => rfl

/-- The power of ten of a number is read, if there is one. -/
theorem result?_exponent? (n : Figures) {rest : List Char} (h : Follows rest) :
  exponent?.result? (n.power ++ rest) = some (n.exponent.map Exponent.value, rest)
  := by
  rw [Figures.power]
  cases n.exponent with
  | none => exact result?_exponent?_none h
  | some e => exact result?_exponent?_some e h

/-- What comes after the digits of a number is no point and no digit. -/
theorem head?_power (n : Figures) {rest : List Char} (h : Follows rest) {c : Char}
    (hc : (n.power ++ rest).head? = some c) :
  c.isDigit = false ∧ c ≠ '.'
  := by
  rw [Figures.power] at hc
  cases hexponent : n.exponent with
  | none =>
      rw [hexponent] at hc
      exact ⟨(h.head?_ne hc).1, (h.head?_ne hc).2.1⟩
  | some e =>
      rw [hexponent] at hc
      obtain rfl := Option.some.inj hc
      rcases e.isLetter with hletter | hletter <;> rw [hletter] <;> decide

/-- The digits after the point of a number are read, if there are any. -/
theorem result?_fraction? (n : Figures) {rest : List Char} (h : Follows rest) :
  fraction?.result? (n.point ++ (n.power ++ rest)) =
    some (n.fraction.map Digits.chars, n.power ++ rest)
  := by
  rw [Figures.point]
  cases n.fraction with
  | none =>
      have hskip : ¬ ['.'].isPrefixOf (n.power ++ rest) = true := by
        cases hrest : n.power ++ rest with
        | nil => decide
        | cons c cs =>
            have hc := (head?_power n h (congrArg List.head? hrest)).2
            simp [hc.symm]
      simp [fraction?, hskip]
  | some ds =>
      have hdigits := result?_digits ds fun c hc => (head?_power n h hc).1
      simp [fraction?, hdigits]

/-- What comes after the whole part of a number is no digit. -/
theorem head?_point (n : Figures) {rest : List Char} (h : Follows rest) {c : Char}
    (hc : (n.point ++ (n.power ++ rest)).head? = some c) :
  c.isDigit = false
  := by
  rw [Figures.point] at hc
  cases hfraction : n.fraction with
  | none =>
      rw [hfraction] at hc
      exact (head?_power n h hc).1
  | some ds =>
      rw [hfraction] at hc
      obtain rfl := Option.some.inj hc
      decide

/-- A number is read, of whatever size it is. -/
theorem result?_numeral (n : Figures) {rest : List Char} (h : Follows rest) :
  numeral.result? (n.chars ++ rest) = some (n.numeral, rest)
  := by
  have hwhole := result?_wholeDigits n fun c hc => head?_point n h hc
  have hfraction := result?_fraction? n h
  have hexponent := result?_exponent? n h
  have hsign : (Reader.skip? ['-'] : JsonReader Bool).result? (n.chars ++ rest) =
      some (n.isNegative, n.whole.chars ++ (n.point ++ (n.power ++ rest))) := by
    obtain ⟨c, cs, hcs, hdigit⟩ := n.whole.exists_cons
    have hminus : c ≠ '-' := by
      rintro rfl
      contradiction
    rw [Figures.chars, Figures.sign]
    cases n.isNegative <;> simp [hcs, hminus.symm]
  rw [numeral, Reader.result?_bind, hsign, Option.bind_some, Reader.result?_bind, hwhole,
    Option.bind_some, Reader.result?_bind, hfraction, Option.bind_some, Reader.result?_bind,
    hexponent]
  rfl

/-- A number is read unless it is out of range. -/
theorem result?_number (n : Figures) {rest : List Char} (h : Follows rest) :
  number.result? (n.chars ++ rest) =
    if n.numeral.isOutOfRange then none else some (n.numeral, rest)
  := by
  rw [number, Reader.result?_bind, result?_numeral n h, Option.bind_some]
  dsimp only
  split <;> rfl

/-! ### The range of numbers -/

/-- One more digit makes a number larger. -/
theorem le_foldl_digits (cs : List Char) (n : Nat) :
  n ≤ cs.foldl (fun n c => n * 10 + (c.toNat - 48)) n
  := by
  induction cs generalizing n with
  | nil => exact Nat.le_refl n
  | cons c cs ih =>
      apply Nat.le_trans _ (ih (n * 10 + (c.toNat - 48)))
      omega

/-- All digits of a number are gathered if it fits in 64 bits. -/
theorem gather_of_lt {cs : List Char} {n : Nat}
    (h : cs.foldl (fun n c => n * 10 + (c.toNat - 48)) n < UInt64.size) :
  gather n cs = (cs.foldl (fun n c => n * 10 + (c.toNat - 48)) n, [])
  := by
  induction cs generalizing n with
  | nil => rfl
  | cons c cs ih =>
      rw [List.foldl_cons] at h ⊢
      have hle := le_foldl_digits cs (n * 10 + (c.toNat - 48))
      have hnext : 10 * n + (c.toNat - 48) = n * 10 + (c.toNat - 48) := by
        rw [Nat.mul_comm]
      rw [gather, hnext, if_pos (Nat.lt_of_le_of_lt hle h), ih h]

/-- The last bit to which a number is rounded is within the number. -/
theorem unit_le (n : Nat) :
  1 <<< (Binary64.width n - 53) ≤ n + 1
  := by
  rw [Nat.one_shiftLeft, Binary64.width]
  split
  next => simp
  next hn =>
    have hpow : 2 ^ n.log2 ≤ n := Nat.log2_self_le hn
    have hle : 2 ^ (n.log2 + 1 - 53) ≤ 2 ^ n.log2 := Nat.pow_le_pow_right (by decide) (by omega)
    omega

/-- A number is not rounded to much more than twice its size. -/
theorem round_le (n : Nat) :
  Binary64.round n ≤ 2 * n + 1
  := by
  have hunit := unit_le n
  rw [Binary64.round]
  generalize 1 <<< (Binary64.width n - 53) = unit at hunit ⊢
  have hlow : n / unit * unit ≤ n := Nat.div_mul_le_self n unit
  split
  · rw [Nat.add_mul, Nat.one_mul]
    omega
  · omega

/-- A natural number that fits in 64 bits is in range. -/
theorem not_isOutOfRange {n : Numeral} {k : Nat} (h : n.natural? = some k)
    (hk : k < UInt64.size) :
  n.isOutOfRange = false
  := by
  obtain ⟨isNegative, whole, fraction, exponent⟩ := n
  rw [Numeral.natural?] at h
  split at h
  · contradiction
  next hplain =>
    obtain rfl := Option.some.inj h
    obtain rfl : fraction = none := by
      cases fraction with
      | none => rfl
      | some ds => exact absurd (Or.inr (Or.inl rfl)) hplain
    obtain rfl : exponent = none := by
      cases exponent with
      | none => rfl
      | some e => exact absurd (Or.inr (Or.inr rfl)) hplain
    have hscaled : (Numeral.mk isNegative whole none none).scaled = (Decimal.value whole, 0) := by
      have hgather : gather 0 whole = (Decimal.value whole, []) := gather_of_lt hk
      rw [Numeral.scaled, hgather]
      rfl
    have hk : Decimal.value whole < UInt64.size := hk
    have hround := round_le (Decimal.value whole)
    have hone : Binary64.round (Nat.pow 10 (Int.toNat 0)) = 1 := by decide
    have hlimit : ¬ Binary64.limit ≤ Binary64.round (Decimal.value whole) := by
      have hsize : 2 * UInt64.size < Binary64.limit := by decide +kernel
      omega
    rw [Numeral.isOutOfRange, hscaled]
    dsimp only
    rw [hone, Nat.mul_one]
    simp [hlimit]

/-! ### Texts -/

/-- Four hexadecimal digits are read. -/
theorem result?_unit16 (u : Unit16) (rest : List Char) :
  unit16.result? (u.digits ++ rest) = some (u.value, rest)
  := by
  have hlength : ¬ (u.digits ++ rest).length < 4 := by
    rw [List.length_append, u.length]
    omega
  have htake : (u.digits ++ rest).take 4 = u.digits := List.take_left' u.length
  have hdrop : (u.digits ++ rest).drop 4 = rest := List.drop_left' u.length
  rw [unit16, Reader.result?_bind, Reader.result?_takeExactly?, if_neg hlength, Option.bind_some]
  dsimp only
  rw [htake, hdrop, u.read]
  rfl

/-- The letters `\u` are passed over before the second of two surrogates. -/
theorem result?_expect_escape (rest : List Char) :
  (expect "\\u").result? ('\\' :: 'u' :: rest) = some ((), rest)
  := by
  rw [expect, Reader.result?_expect]
  rfl

/-- What stands after a backslash and a `u` is read as the character. -/
theorem result?_codePoint_unit {u : Unit16} (h : ¬ (0xd800 ≤ u.value ∧ u.value < 0xe000))
    (rest : List Char) :
  codePoint.result? (u.digits ++ rest) = some (Char.ofNat u.value, rest)
  := by
  rw [codePoint, Reader.result?_bind, result?_unit16, Option.bind_some]
  dsimp only
  rw [if_neg (by omega), if_neg (by omega)]
  rfl

/-- Two surrogates are read as one character. -/
theorem result?_codePoint_pair {u v : Unit16} (hu : 0xd800 ≤ u.value ∧ u.value < 0xdc00)
    (hv : 0xdc00 ≤ v.value ∧ v.value < 0xe000) (rest : List Char) :
  codePoint.result? (u.digits ++ '\\' :: 'u' :: (v.digits ++ rest)) =
    some (Char.ofNat (0x10000 + 0x400 * (u.value - 0xd800) + (v.value - 0xdc00)), rest)
  := by
  rw [codePoint, Reader.result?_bind, result?_unit16, Option.bind_some]
  dsimp only
  rw [if_pos hu, Reader.result?_bind, result?_expect_escape, Option.bind_some,
    Reader.result?_bind, result?_unit16, Option.bind_some]
  dsimp only
  rw [if_pos hv]
  rfl

/-- The next character between quotes is what it stands for. -/
theorem result?_letter?_plain (unicode : JsonReader Char) {c : Char} (hquote : c ≠ '"')
    (hslash : c ≠ '\\') (hcontrol : ¬ c < ' ') (rest : List Char) :
  (letter? unicode).result? (c :: rest) = some (some c, rest)
  := by
  simp only [letter?, Reader.result?_bind, Reader.result?_peek?, Option.bind_some,
    List.head?_cons, Reader.result?_advance, List.tail_cons, if_neg hquote, if_neg hslash,
    if_neg hcontrol, Reader.result?_pure]

/-- The next character between quotes is what a letter after a backslash stands for. -/
theorem result?_letter?_short (unicode : JsonReader Char) {letter c : Char}
    (h : (letter, c) ∈ shortEscapes) (rest : List Char) :
  (letter? unicode).result? ('\\' :: letter :: rest) = some (some c, rest)
  := by
  simp only [shortEscapes, List.mem_cons, Prod.mk.injEq, List.not_mem_nil, or_false] at h
  rcases h with ⟨rfl, rfl⟩ | ⟨rfl, rfl⟩ | ⟨rfl, rfl⟩ | ⟨rfl, rfl⟩ | ⟨rfl, rfl⟩ | ⟨rfl, rfl⟩ |
    ⟨rfl, rfl⟩ | ⟨rfl, rfl⟩ <;> rfl

/-- The next character between quotes is what the digits after a backslash and a `u` stand for. -/
theorem result?_letter?_unicode (unicode : JsonReader Char) {c : Char} {cs rest : List Char}
    (h : unicode.result? cs = some (c, rest)) :
  (letter? unicode).result? ('\\' :: 'u' :: cs) = some (some c, rest)
  := by
  have hescaped : (escaped unicode).result? ('u' :: cs) = some (c, rest) := by
    rw [escaped, Reader.result?_bind, Reader.result?_peek?, Option.bind_some, Reader.result?_bind,
      Reader.result?_advance, Option.bind_some]
    exact h
  have hquote : '\\' ≠ '"' := by decide
  simp only [letter?, Reader.result?_bind, Reader.result?_peek?, Option.bind_some,
    List.head?_cons, Reader.result?_advance, List.tail_cons, if_neg hquote, if_true, hescaped,
    Reader.result?_pure]

/-- The closing quote is passed. -/
theorem result?_letter?_closing (unicode : JsonReader Char) (rest : List Char) :
  (letter? unicode).result? ('"' :: rest) = some (none, rest)
  := rfl

/-- A character between quotes is read as what is written. -/
theorem result?_letter? (g : Glyph) (rest : List Char) :
  (letter? codePoint).result? (g.chars ++ rest) = some (some g.char, rest)
  := by
  cases g with
  | plain c hquote hslash hcontrol => exact result?_letter?_plain _ hquote hslash hcontrol rest
  | short letter c h => exact result?_letter?_short _ h rest
  | unit u h => exact result?_letter?_unicode _ (result?_codePoint_unit h rest)
  | pair u v hu hv =>
      have hpair := result?_letter?_unicode _ (result?_codePoint_pair hu hv rest)
      rw [Glyph.chars, List.cons_append, List.cons_append, List.append_assoc]
      exact hpair

/-- A character takes some place. -/
theorem Glyph.chars_ne_nil (g : Glyph) :
  g.chars ≠ []
  := by
  cases g <;> simp [chars]

/-- Characters are read up to the closing quote. -/
theorem result?_letters (gs : List Glyph) (rest : List Char) {n : Nat}
    (hn : (gs.flatMap Glyph.chars).length < n) :
  (Reader.repeatUpTo .malformed (letter? codePoint) n).result?
      (gs.flatMap Glyph.chars ++ '"' :: rest) = some (gs.map Glyph.char, rest)
  := by
  induction gs generalizing n with
  | nil =>
      cases n with
      | zero => contradiction
      | succ n => exact Reader.result?_repeatUpTo_none (result?_letter?_closing _ rest) _ n
  | cons g gs ih =>
      have hg : 0 < g.chars.length := List.length_pos_iff.mpr g.chars_ne_nil
      rw [List.flatMap_cons, List.length_append] at hn
      cases n with
      | zero => contradiction
      | succ n =>
          rw [List.flatMap_cons, List.append_assoc,
            Reader.result?_repeatUpTo_some (result?_letter? g _), ih (by omega)]
          rfl

/-- Characters are passed over up to the closing quote. -/
theorem result?_anyLetters (gs : List Glyph) (rest : List Char) {n : Nat}
    (hn : (gs.flatMap Glyph.chars).length < n) :
  ∃ xs, (Reader.repeatUpTo .malformed (letter? anyUnit) n).result?
      (gs.flatMap Glyph.chars ++ '"' :: rest) = some (xs, rest)
  := by
  have hunit : ∀ (u : Unit16) (cs : List Char),
      (letter? anyUnit).result? ('\\' :: 'u' :: (u.digits ++ cs)) = some (some '\ufffd', cs) := by
    intro u cs
    apply result?_letter?_unicode
    rw [anyUnit, Reader.result?_bind, result?_unit16]
    rfl
  -- one or two steps are made for a character, which has as many places at least
  have hnext : ∀ {a : Char} {cs ds : List Char} {n : Nat},
      (letter? anyUnit).result? cs = some (some a, ds) →
      (∃ xs, (Reader.repeatUpTo .malformed (letter? anyUnit) n).result? ds = some (xs, rest)) →
      ∃ xs, (Reader.repeatUpTo .malformed (letter? anyUnit) (n + 1)).result? cs =
        some (xs, rest) := by
    intro a cs ds n hstep ⟨xs, hxs⟩
    refine ⟨a :: xs, ?_⟩
    rw [Reader.result?_repeatUpTo_some hstep, hxs]
    rfl
  induction gs generalizing n with
  | nil =>
      cases n with
      | zero => contradiction
      | succ n => exact ⟨[], Reader.result?_repeatUpTo_none (result?_letter?_closing _ rest) _ n⟩
  | cons g gs ih =>
      rw [List.flatMap_cons, List.length_append] at hn
      rw [List.flatMap_cons, List.append_assoc]
      obtain ⟨n, rfl⟩ : ∃ m, n = m + 1 := ⟨n - 1, by omega⟩
      cases g with
      | plain c hquote hslash hcontrol =>
          rw [Glyph.chars, List.length_singleton] at hn
          exact hnext (result?_letter?_plain _ hquote hslash hcontrol _) (ih (by omega))
      | short letter c h =>
          rw [Glyph.chars, List.length_cons] at hn
          exact hnext (result?_letter?_short _ h _) (ih (by omega))
      | unit u h =>
          rw [Glyph.chars, List.length_cons] at hn
          exact hnext (hunit u _) (ih (by omega))
      | pair u v hu hv =>
          rw [Glyph.chars, List.length_cons, List.length_cons, List.length_append,
            List.length_cons] at hn
          obtain ⟨n, rfl⟩ : ∃ m, n = m + 1 := ⟨n - 1, by omega⟩
          rw [Glyph.chars, List.cons_append, List.cons_append, List.append_assoc]
          exact hnext (hunit u _) (hnext (hunit v _) (ih (by omega)))

/-- What is made of the characters between quotes is made of the text. -/
theorem result?_quoted (unicode : JsonReader Char) (s : Letters) (rest : List Char) :
  (quoted unicode).result? (s.chars ++ rest) =
    (Reader.repeatUntilNone .malformed (letter? unicode)).result?
      (s.flatMap Glyph.chars ++ '"' :: rest)
  := by
  rw [Letters.chars, List.cons_append, List.append_assoc, List.singleton_append, quoted,
    Reader.result?_bind, result?_expect_cons '"' _ rfl, Option.bind_some]

/-- A text is read as it is written. -/
theorem result?_text (s : Letters) (rest : List Char) :
  text.result? (s.chars ++ rest) = some (s.string, rest)
  := by
  have hletters := result?_letters s rest (n := (s.flatMap Glyph.chars ++ '"' :: rest).length + 1)
    (by rw [List.length_append]; omega)
  rw [text, Reader.result?_bind, result?_quoted, Reader.repeatUntilNone, Reader.result?_bind,
    Reader.result?_get, Option.bind_some, hletters]
  rfl

/-- A text is passed over, with whatever characters are escaped in it. -/
theorem result?_skipText (s : Letters) (rest : List Char) :
  skipText.result? (s.chars ++ rest) = some ((), rest)
  := by
  obtain ⟨xs, hletters⟩ := result?_anyLetters s rest
    (n := (s.flatMap Glyph.chars ++ '"' :: rest).length + 1) (by rw [List.length_append]; omega)
  rw [skipText, Reader.result?_bind, result?_quoted, Reader.repeatUntilNone, Reader.result?_bind,
    Reader.result?_get, Option.bind_some, hletters]
  rfl

end DelegatedAccess.Json
