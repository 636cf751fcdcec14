import DelegatedAccess.Json.Skip
import DelegatedAccess.Proofs.Json.Kind

/-!
# Values are passed over

A value that nobody asked for is passed over, whatever it contains and however deep it is nested.
-/

namespace DelegatedAccess.Json

/-! ### Members -/

/-- The members after the first may follow a value. -/
theorem follows_members (members : List (Gap × Name × Tree)) (closing : Blanks)
    (rest : List Char) :
  Follows (memberChars false members ++ (closing.1 ++ '}' :: rest))
  := by
  cases members with
  | nil => exact follows_blanks closing (Or.inr (Or.inr rfl)) rest
  | cons member members =>
      rw [memberChars, Gap.chars, List.append_assoc, List.append_assoc]
      exact follows_blanks member.1.before (Or.inl rfl) _

/-- A member comes after a gap. -/
theorem result?_nextItem?_name (g : Gap) (isFirst : Bool) (s : Letters) (rest : List Char) :
  (nextItem? '}' isFirst).result? (g.chars isFirst ++ (s.chars ++ rest)) =
    some (true, s.chars ++ rest)
  := result?_nextItem?_gap g isFirst rfl (by decide) (by decide) _

/-- The colon after a name is passed over. -/
theorem result?_expectColon (b : Blanks) (rest : List Char) :
  expectColon.result? (b.1 ++ ':' :: rest) = some ((), rest)
  := by
  rw [expectColon, Reader.result?_bind, result?_skipBlanks, dropWhile_blanks b rfl,
    Option.bind_some]
  exact result?_expect_cons ':' rest rfl

/-! ### Skipping -/

/-- The containers that are open when a value was entered. -/
def Tree.frame? : Tree → Option Frame
  | array _ _ => some ⟨.array, true⟩
  | object _ _ => some ⟨.object, true⟩
  | _ => none

/-- What is left of a value when it was entered. -/
def Tree.inside : Tree → List Char → List Char
  | array items closing, rest => itemChars true items ++ (closing.1 ++ ']' :: rest)
  | object members closing, rest => memberChars true members ++ (closing.1 ++ '}' :: rest)
  | _, rest => rest

/-- A value takes some place. -/
theorem Tree.length_inside_lt (t : Tree) (rest : List Char) :
  (t.inside rest).length < (t.chars ++ rest).length
  := by
  obtain ⟨cs, hcs⟩ := t.exists_cons
  cases t with
  | array items closing => simp [inside, chars]
  | object members closing => simp [inside, chars]
  | _ =>
      change rest.length < _
      rw [hcs, List.length_append, List.length_cons]
      omega

/-- A value is entered, and is passed over at once unless it contains others. -/
theorem result?_enter (b : Blanks) (t : Tree) {rest : List Char} (hrest : Follows rest) :
  enter.result? (b.1 ++ (t.chars ++ rest)) = some (t.frame?, t.inside rest)
  := by
  rw [enter, result?_peek_tree]
  cases t with
  | null => rfl
  | bool x => cases x <;> rfl
  | number n =>
      have hstarts := (Tree.number n).startsNumber_initial
      have hnumeral := result?_numeral n hrest
      generalize (Tree.number n).initial = c at hstarts ⊢
      split
      next h =>
        obtain rfl := Option.some.inj h
        contradiction
      next h =>
        obtain rfl := Option.some.inj h
        contradiction
      next h =>
        obtain rfl := Option.some.inj h
        contradiction
      next h =>
        obtain rfl := Option.some.inj h
        contradiction
      next h =>
        obtain rfl := Option.some.inj h
        contradiction
      next h =>
        obtain rfl := Option.some.inj h
        contradiction
      next =>
        rw [Reader.result?_bind, Tree.chars, hnumeral]
        rfl
  | text s =>
      have hskip := result?_skipText s rest
      change (do skipText; return none : JsonReader (Option Frame)).result? _ = _
      rw [Reader.result?_bind, Tree.chars, hskip]
      rfl
  | array items closing => simp [Tree.initial, Tree.chars, Tree.frame?, Tree.inside]
  | object members closing => simp [Tree.initial, Tree.chars, Tree.frame?, Tree.inside]

/-- The innermost container is closed when there is nothing more in it. -/
theorem result?_passOver_closing (c : Container) (isFresh : Bool) (outer : List Frame)
    (b : Blanks) (rest : List Char) :
  (passOver (⟨c, isFresh⟩ :: outer)).result? (b.1 ++ c.closing :: rest) = some (some outer, rest)
  := by
  have hclosing : isBlank c.closing = false := by cases c <;> rfl
  rw [passOver, Reader.result?_bind, result?_nextItem?_closing b isFresh hclosing,
    Option.bind_some]
  rfl

/-- An item of an array is entered. -/
theorem result?_passOver_item (isFresh : Bool) (outer : List Frame) (g : Gap) (t : Tree)
    {rest : List Char} (hrest : Follows rest) :
  (passOver (⟨.array, isFresh⟩ :: outer)).result? (g.chars isFresh ++ (t.chars ++ rest)) =
    some (some (t.frame?.toList ++ ⟨.array, false⟩ :: outer), t.inside rest)
  := by
  have henter : enter.result? (t.chars ++ rest) = some (t.frame?, t.inside rest) :=
    result?_enter noBlanks t hrest
  rw [passOver, Reader.result?_bind, Container.closing,
    result?_nextItem?_tree g isFresh t (Or.inl rfl), Option.bind_some]
  dsimp only
  rw [if_pos rfl, if_neg (by decide), Reader.result?_bind, henter]
  rfl

/-- A member of an object is entered after its name. -/
theorem result?_passOver_member (isFresh : Bool) (outer : List Frame) (g : Gap) (n : Name)
    (t : Tree) {rest : List Char} (hrest : Follows rest) :
  (passOver (⟨.object, isFresh⟩ :: outer)).result?
      (g.chars isFresh ++ (n.chars ++ (n.after.1 ++ (t.chars ++ rest)))) =
    some (some (t.frame?.toList ++ ⟨.object, false⟩ :: outer), t.inside rest)
  := by
  rw [Name.chars, List.append_assoc, List.append_assoc, List.singleton_append, passOver,
    Reader.result?_bind, Container.closing, result?_nextItem?_name, Option.bind_some]
  dsimp only
  rw [if_pos rfl, if_pos rfl, Reader.result?_bind, result?_skipText, Option.bind_some]
  dsimp only
  rw [Reader.result?_bind, result?_expectColon, Option.bind_some]
  dsimp only
  rw [Reader.result?_bind, result?_enter n.after t hrest]
  rfl

mutual

/-- What is left of a value that was entered is passed over. -/
theorem leads_inside : ∀ (t : Tree) (outer : List Frame) (rest : List Char),
    Reader.Leads passOver (t.frame?.toList ++ outer) (t.inside rest) outer rest
  | .array items closing, outer, rest => leads_items items true closing outer rest
  | .object members closing, outer, rest => leads_members members true closing outer rest
  | .null, outer, rest => Reader.Leads.refl outer rest
  | .bool _, outer, rest => Reader.Leads.refl outer rest
  | .number _, outer, rest => Reader.Leads.refl outer rest
  | .text _, outer, rest => Reader.Leads.refl outer rest

/-- The items of an array are passed over. -/
theorem leads_items : ∀ (items : List (Gap × Tree)) (isFresh : Bool) (closing : Blanks)
    (outer : List Frame) (rest : List Char),
    Reader.Leads passOver (⟨.array, isFresh⟩ :: outer)
      (itemChars isFresh items ++ (closing.1 ++ ']' :: rest)) outer rest
  | [], isFresh, closing, outer, rest => by
      have hlength : rest.length < (closing.1 ++ ']' :: rest).length := by
        rw [List.length_append, List.length_cons]
        omega
      exact Reader.Leads.next (result?_passOver_closing .array isFresh outer closing rest) hlength
        (Reader.Leads.refl outer rest)
  | (g, t) :: items, isFresh, closing, outer, rest => by
      have hpass := result?_passOver_item isFresh outer g t (follows_items items closing rest)
      have hinside := leads_inside t (⟨.array, false⟩ :: outer)
        (itemChars false items ++ (closing.1 ++ ']' :: rest))
      have hitems := leads_items items false closing outer rest
      have hlength := t.length_inside_lt (itemChars false items ++ (closing.1 ++ ']' :: rest))
      rw [itemChars, List.append_assoc, List.append_assoc]
      apply Reader.Leads.next hpass _ (hinside.trans hitems)
      rw [List.length_append]
      omega

/-- The members of an object are passed over. -/
theorem leads_members : ∀ (members : List (Gap × Name × Tree)) (isFresh : Bool)
    (closing : Blanks) (outer : List Frame) (rest : List Char),
    Reader.Leads passOver (⟨.object, isFresh⟩ :: outer)
      (memberChars isFresh members ++ (closing.1 ++ '}' :: rest)) outer rest
  | [], isFresh, closing, outer, rest => by
      have hlength : rest.length < (closing.1 ++ '}' :: rest).length := by
        rw [List.length_append, List.length_cons]
        omega
      exact Reader.Leads.next (result?_passOver_closing .object isFresh outer closing rest) hlength
        (Reader.Leads.refl outer rest)
  | (g, n, t) :: members, isFresh, closing, outer, rest => by
      have hpass := result?_passOver_member isFresh outer g n t
        (follows_members members closing rest)
      have hinside := leads_inside t (⟨.object, false⟩ :: outer)
        (memberChars false members ++ (closing.1 ++ '}' :: rest))
      have hmembers := leads_members members false closing outer rest
      have hlength := t.length_inside_lt (memberChars false members ++ (closing.1 ++ '}' :: rest))
      rw [memberChars, List.append_assoc, List.append_assoc, List.append_assoc, List.append_assoc]
      apply Reader.Leads.next hpass _ (hinside.trans hmembers)
      rw [List.length_append, List.length_append, List.length_append]
      omega

end

/-- A value is passed over. -/
theorem result?_skipValue (b : Blanks) (t : Tree) {rest : List Char} (hrest : Follows rest) :
  skipValue.result? (b.1 ++ (t.chars ++ rest)) = some ((), rest)
  := by
  have hleads := leads_inside t [] rest
  rw [List.append_nil] at hleads
  rw [skipValue, Reader.result?_bind, result?_enter b t hrest, Option.bind_some]
  dsimp only
  rw [Reader.result?_bind, hleads.iterateUntilNone .malformed rfl]
  rfl

end DelegatedAccess.Json
