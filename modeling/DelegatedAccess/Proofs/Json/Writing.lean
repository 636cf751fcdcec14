import DelegatedAccess.Json.Value
import DelegatedAccess.Proofs.Decimal
import DelegatedAccess.Proofs.Hex
import DelegatedAccess.Proofs.Json.Record

/-!
# JSON values are written as syntax trees

A JSON value is written without blanks, with its numbers in full, and with no character escaped that
need not be.

The main result of this module is that the text of a value is the text of a syntax tree, which holds
the very numbers, texts, items and members of the value.
-/

namespace DelegatedAccess.Json

/-! ### Numbers -/

/-- The decimal digits of a number. -/
def Digits.ofNat (n : Nat) : Digits where
  chars := Nat.toDigits 10 n
  nonempty := Nat.toDigits_ne_nil
  isDigit _ hc := Nat.isDigit_of_mem_toDigits (by decide) (by decide) hc

/-- A number that is not zero does not begin with a zero. -/
theorem head?_toDigits {n : Nat} (hn : n ≠ 0) :
  (Nat.toDigits 10 n).head? ≠ some '0'
  := by
  induction n using Nat.strongRecOn with
  | _ n ih =>
      by_cases hless : n < 10
      · have hdigit : ∀ k, k < 10 → k ≠ 0 → k.digitChar ≠ '0' := by decide
        rw [Nat.toDigits_of_lt_base hless]
        intro h
        exact hdigit n hless hn (Option.some.inj h)
      · have hle : 10 ≤ n := Nat.not_lt.mp hless
        obtain ⟨c, cs, hcs, -⟩ := (Digits.ofNat (n / 10)).exists_cons
        change Nat.toDigits 10 (n / 10) = c :: cs at hcs
        have hhead := ih (n / 10) (by omega) (by omega)
        rw [Nat.toDigits_of_base_le (by decide) hle, hcs]
        rw [hcs] at hhead
        exact hhead

/-- A number as it is written: in decimal digits. -/
def Figures.ofNat (n : Nat) : Figures where
  isNegative := false
  whole := .ofNat n
  isPlain c cs h := by
    by_cases hn : n = 0
    · subst hn
      exact absurd (List.cons.inj h).2 (List.cons_ne_nil c cs).symm
    · apply head?_toDigits hn
      change (Digits.ofNat n).chars.head? = _
      rw [h]
      rfl
  fraction := none
  exponent := none

/-! ### Texts -/

/-- A number below 256 in four hexadecimal digits. -/
def Unit16.ofNat (n : Nat) (hn : n < 256) : Unit16 where
  digits := ['0', '0', Hex.digit (n / 16), Hex.digit (n % 16)]
  values := [0, 0, n / 16, n % 16]
  length := rfl
  read := by
    have hzero : Hex.value? '0' = some 0 := by decide
    have hhigh := Hex.value?_digit (show n / 16 < 16 by omega)
    have hlow := Hex.value?_digit (Nat.mod_lt n (show 0 < 16 by decide))
    simp [hzero, hhigh, hlow]

/-- The value of a number in four hexadecimal digits is the number. -/
theorem Unit16.value_ofNat {n : Nat} (hn : n < 256) :
  (ofNat n hn).value = n
  := by
  change 16 * (16 * (16 * (16 * 0 + 0) + 0) + n / 16) + n % 16 = n
  omega

/-- A control character comes before the blank. -/
theorem toNat_lt_of_lt_blank {c : Char} (h : c < ' ') :
  c.toNat < 32
  := h

/-- A character as it is written. -/
def glyph (c : Char) : Glyph :=
  if hquote : c = '"' then .short '"' c (by subst hquote; decide)
  else if hslash : c = '\\' then .short '\\' c (by subst hslash; decide)
  else if h : c = '\x08' then .short 'b' c (by subst h; decide)
  else if h : c = '\x0c' then .short 'f' c (by subst h; decide)
  else if h : c = '\n' then .short 'n' c (by subst h; decide)
  else if h : c = '\r' then .short 'r' c (by subst h; decide)
  else if h : c = '\t' then .short 't' c (by subst h; decide)
  else if hcontrol : c < ' ' then
    .unit (.ofNat c.toNat (by have := toNat_lt_of_lt_blank hcontrol; omega)) (by
      have := toNat_lt_of_lt_blank hcontrol
      rw [Unit16.value_ofNat]
      omega)
  else .plain c hquote hslash hcontrol

/-- A character is written as it is escaped. -/
theorem chars_glyph (c : Char) :
  (glyph c).chars = escape c
  := by
  rw [glyph, escape]
  repeat' split
  all_goals rfl

/-- The character that is written is the character. -/
theorem char_glyph (c : Char) :
  (glyph c).char = c
  := by
  rw [glyph]
  repeat' split
  any_goals rfl
  rw [Glyph.char, Unit16.value_ofNat, Char.ofNat_toNat]

/-- A text as it is written. -/
def Letters.ofString (s : String) : Letters :=
  s.toList.map glyph

/-- A text is written between quotes. -/
theorem Letters.chars_ofString (s : String) :
  (ofString s).chars = (quote s).toList
  := by
  have hglyphs : (ofString s).flatMap Glyph.chars = s.toList.flatMap escape := by
    rw [ofString, List.flatMap_map]
    exact congrArg (s.toList.flatMap ·) (funext chars_glyph)
  rw [chars, hglyphs, quote]
  simp

/-- The text that is written is the text. -/
theorem Letters.string_ofString (s : String) :
  (ofString s).string = s
  := by
  have hchars : (ofString s).map Glyph.char = s.toList := by
    rw [ofString, List.map_map]
    exact List.map_id'' char_glyph _
  rw [string, hchars, String.ofList_toList]

/-! ### Values -/

/-- No blanks on either side of a comma. -/
def noGap : Gap :=
  ⟨noBlanks, noBlanks⟩

mutual

/-- A value as it is written. -/
def Value.tree : Value → Tree
  | .null => .null
  | .bool b => .bool b
  | .number n => .number (.ofNat n)
  | .text s => .text (.ofString s)
  | .array vs => .array (treeItems vs) noBlanks
  | .object ms => .object (treeMembers ms) noBlanks

/-- The items of an array as they are written. -/
def treeItems : List Value → List (Gap × Tree)
  | [] => []
  | v :: vs => (noGap, v.tree) :: treeItems vs

/-- The members of an object as they are written. -/
def treeMembers : List (String × Value) → List (Gap × Name × Tree)
  | [] => []
  | (name, v) :: ms => (noGap, ⟨.ofString name, noBlanks, noBlanks⟩, v.tree) :: treeMembers ms

end

/-- A comma comes before each item that is not the first. -/
theorem itemChars_treeItems_cons (v : Value) (vs : List Value) :
  itemChars false (treeItems (v :: vs)) = ',' :: itemChars true (treeItems (v :: vs))
  := rfl

/-- A comma comes before each member that is not the first. -/
theorem memberChars_treeMembers_cons (m : String × Value) (ms : List (String × Value)) :
  memberChars false (treeMembers (m :: ms)) = ',' :: memberChars true (treeMembers (m :: ms))
  := rfl

/-- Pieces are enclosed between brackets, with commas between them. -/
theorem toList_enclose (opening : String) (pieces : List String) (closing : String) :
  (enclose opening pieces closing).toList =
    opening.toList ++ ([','].intercalate (pieces.map String.toList) ++ closing.toList)
  := by
  rw [enclose, String.toList_append, String.toList_append, String.toList_intercalate,
    List.append_assoc]
  rfl

/-- A number is written in decimal digits. -/
theorem Figures.chars_ofNat (n : Nat) :
  (ofNat n).chars = (toString n).toList
  := by
  change Nat.toDigits 10 n ++ ([] ++ []) = n.repr.toList
  rw [Nat.toList_repr, List.append_nil, List.append_nil]

/-- A member is written with its name between quotes, a colon, and its value. -/
theorem toList_member (name text : String) :
  (quote name ++ ":" ++ text).toList = (Letters.ofString name).chars ++ ':' :: text.toList
  := by
  rw [Letters.chars_ofString, String.toList_append, String.toList_append, List.append_assoc]
  rfl

mutual

/-- The text of a value is that of its syntax tree. -/
theorem chars_tree : (v : Value) → v.tree.chars = v.render.toList
  | .null => rfl
  | .bool b => by cases b <;> rfl
  | .number n => Figures.chars_ofNat n
  | .text s => Letters.chars_ofString s
  | .array vs => by
      rw [Value.render, toList_enclose, ← itemChars_treeItems vs]
      rfl
  | .object ms => by
      rw [Value.render, toList_enclose, ← memberChars_treeMembers ms]
      rfl

/-- The text of items is that of their syntax trees. -/
theorem itemChars_treeItems : (vs : List Value) →
    itemChars true (treeItems vs) = [','].intercalate ((renderItems vs).map String.toList)
  | [] => rfl
  | [v] => by
      change v.tree.chars ++ [] = [','].intercalate [v.render.toList]
      rw [chars_tree v, List.append_nil, List.intercalate_singleton]
  | v :: v' :: vs => by
      change v.tree.chars ++ itemChars false (treeItems (v' :: vs)) =
        [','].intercalate (v.render.toList :: (renderItems (v' :: vs)).map String.toList)
      rw [chars_tree v, itemChars_treeItems_cons, itemChars_treeItems (v' :: vs), renderItems,
        List.map_cons, List.intercalate_cons_cons, List.append_assoc]
      rfl

/-- The text of members is that of their syntax trees. -/
theorem memberChars_treeMembers : (ms : List (String × Value)) →
    memberChars true (treeMembers ms) = [','].intercalate ((renderMembers ms).map String.toList)
  | [] => rfl
  | [(name, v)] => by
      change ((Letters.ofString name).chars ++ [':']) ++ (v.tree.chars ++ []) =
        [','].intercalate [(quote name ++ ":" ++ v.render).toList]
      rw [chars_tree v, List.append_nil, List.intercalate_singleton, toList_member,
        List.append_assoc]
      rfl
  | (name, v) :: m :: ms => by
      change ((Letters.ofString name).chars ++ [':']) ++
          (v.tree.chars ++ memberChars false (treeMembers (m :: ms))) =
        [','].intercalate ((quote name ++ ":" ++ v.render).toList ::
          (renderMembers (m :: ms)).map String.toList)
      rw [chars_tree v, memberChars_treeMembers_cons, memberChars_treeMembers (m :: ms),
        renderMembers, List.map_cons, List.intercalate_cons_cons, toList_member name v.render,
        List.append_assoc, List.append_assoc, List.append_assoc]
      rfl

end

/-! ### What the trees hold -/

/-- The natural number that a tree holds, of whatever size it is. -/
def Tree.number? : Tree → Option Nat
  | number n => n.numeral.natural?
  | _ => none

/-- A number that is written is held. -/
@[simp] theorem number?_tree (n : Nat) :
  (Value.number n).tree.number? = some n
  := by
  rw [Value.tree, Tree.number?, natural?_numeral]
  change some (Decimal.value (Nat.toDigits 10 n)) = some n
  rw [Decimal.value_toDigits]

/-- A number that is written is held, if it is below a bound. -/
theorem natural?_tree (n bound : Nat) :
  (Value.number n).tree.natural? bound = if n < bound then some n else none
  := by
  have hnumeral : (Figures.ofNat n).numeral.natural? = some n := number?_tree n
  rw [Value.tree, Tree.natural?, hnumeral, Option.filter_some]
  simp

/-- A number of 8 bits that is written is held. -/
@[simp] theorem byte?_tree (n : UInt8) :
  (Value.number n.toNat).tree.byte? = some n
  := by
  rw [Tree.byte?, natural?_tree, if_pos n.toNat_lt, Option.map_some, UInt8.ofNat_toNat]

/-- A number of 64 bits that is written is held. -/
@[simp] theorem word?_tree (n : UInt64) :
  (Value.number n.toNat).tree.word? = some n
  := by
  rw [Tree.word?, natural?_tree, if_pos n.toNat_lt, Option.map_some, UInt64.ofNat_toNat]

/-- A number of 128 bits that is written is held. -/
@[simp] theorem wide?_tree (n : DelegatedAccess.Value) :
  (Value.number n.toNat).tree.wide? = some n
  := by
  have hless : n.toNat < wideSize := by
    rw [← toNat_ofNat_eq_iff, BitVec.ofNat_toNat, BitVec.setWidth_eq]
  rw [Tree.wide?, natural?_tree, if_pos hless, Option.map_some, BitVec.ofNat_toNat,
    BitVec.setWidth_eq]

/-- A text that is written is held. -/
@[simp] theorem string?_tree (s : String) :
  (Value.text s).tree.string? = some s
  := congrArg some (Letters.string_ofString s)

/-- The items that are written are held. -/
theorem array?_tree {α : Type} (take? : Tree → Option α) (vs : List Value) :
  (Value.array vs).tree.array? take? = vs.mapM fun v => take? v.tree
  := by
  change (treeItems vs).mapM _ = _
  induction vs with
  | nil => rfl
  | cons v vs ih => rw [treeItems, List.mapM_cons, List.mapM_cons, ih]

/-- What is written for a thing holds the thing. -/
def Writes {α : Type} (write : α → Value) (take? : Tree → Option α) : Prop :=
  ∀ a, take? (write a).tree = some a

namespace Writes

variable {α : Type} {write : α → Value} {take? : Tree → Option α}

/-- What is written for items holds the items. -/
theorem array (h : Writes write take?) :
  Writes (fun as => .array (as.map write)) (Tree.array? take?)
  := by
  intro as
  rw [array?_tree]
  induction as with
  | nil => rfl
  | cons a as ih =>
      rw [List.map_cons, List.mapM_cons, h a, ih]
      rfl

/-- What is written for an optional thing holds the thing, unless it is null. -/
theorem orNull (h : Writes write take?) (hnull : take? .null = none) :
  Writes (.orNull write) (Tree.nullable? take?)
  := by
  intro a?
  cases a? with
  | none => rfl
  | some a =>
      have ha := h a
      rw [Value.orNull]
      generalize (write a).tree = t at ha ⊢
      cases t with
      | null =>
          rw [hnull] at ha
          contradiction
      | _ => exact congrArg (Option.map some) ha

end Writes

/-- The members of a name are written under the name. -/
theorem membersOf_treeMembers {ms : List (String × Value)} (hnames : (ms.map Prod.fst).Nodup)
    (name : String) :
  (membersOf (treeMembers ms) name).map (fun m => m.2.2) =
    ((ms.lookup name).map Value.tree).toList
  := by
  induction ms with
  | nil => rfl
  | cons m ms ih =>
      obtain ⟨name', v⟩ := m
      obtain ⟨hname, hnames⟩ := List.nodup_cons.mp hnames
      have hstring : (Letters.ofString name').string = name' := Letters.string_ofString name'
      have hcons : membersOf (treeMembers ((name', v) :: ms)) name =
          if name' = name then
            (noGap, ⟨.ofString name', noBlanks, noBlanks⟩, v.tree) ::
              membersOf (treeMembers ms) name
          else membersOf (treeMembers ms) name := by
        rw [treeMembers, membersOf, List.filter_cons]
        simp [Name.string, hstring, membersOf]
      rw [hcons, List.lookup_cons]
      by_cases heq : name' = name
      · subst heq
        have hnone : ms.lookup name' = none := by
          rw [List.lookup_eq_none_iff]
          intro m hm
          have hne : name' ≠ m.1 := fun h => hname (List.mem_map.mpr ⟨m, hm, h.symm⟩)
          simpa using hne
        rw [if_pos rfl, List.map_cons, ih hnames, hnone]
        simp
      · rw [if_neg heq, ih hnames, beq_eq_false_iff_ne.mpr fun h => heq h.symm]

/-- What is found of an object that is written: each member under its name. -/
def foundOf (ms : List (String × Value)) : Found :=
  ⟨fun name => (ms.lookup name).map Value.tree, false⟩

/-- The members that are written are found under their names. -/
theorem found?_tree {ms : List (String × Value)} (hnames : (ms.map Prod.fst).Nodup)
    (names : List String) :
  (Value.object ms).tree.found? names = some (foundOf ms)
  := by
  have hmembers := membersOf_treeMembers hnames
  have hlength : ∀ name ∈ names, (membersOf (treeMembers ms) name).length ≤ 1 := by
    intro name _
    rw [← List.length_map (f := fun m => m.2.2), hmembers]
    cases ms.lookup name <;> simp
  have hfound : foundIn (treeMembers ms) = foundOf ms := by
    rw [foundIn, foundOf]
    congr 1
    funext name
    rw [← List.head?_map, hmembers]
    cases ms.lookup name <;> rfl
  rw [Value.tree, Tree.found?, if_pos hlength, hfound]

/-- What is made of an object that is written is made of its members. -/
theorem found?_tree_bind {α : Type} {ms : List (String × Value)}
    (hnames : (ms.map Prod.fst).Nodup) (names : List String) (f : Found → Option α) :
  ((Value.object ms).tree.found? names >>= f) = f (foundOf ms)
  := by
  rw [found?_tree hnames]
  rfl

end DelegatedAccess.Json
