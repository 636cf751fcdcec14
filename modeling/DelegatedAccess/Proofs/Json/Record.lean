import DelegatedAccess.Json.Record
import DelegatedAccess.Proofs.Json.Skip

/-!
# Records are read by the names of their fields

A record is taken from an object by the names of its fields, whatever their order is and whatever
else the object has, or from an array by their order.

The main result of this module is that a reader of records takes from every tree what is found there
under the names of the fields, and fails if something is missing, or written twice.
-/

namespace DelegatedAccess.Json

/-! ### Fields -/

/-- A field of a record, with what its reader takes from a tree. -/
structure Entry where
  field : Field
  take? : Tree → Option field.Carrier
  reads : Reads field.read take?

/-- The fields of a record. -/
abbrev fieldsOf (es : List Entry) : List Field :=
  es.map Entry.field

/-- The names of the fields of a record. -/
def namesOf (es : List Entry) : List String :=
  es.map fun e => e.field.name

/-- Trees that stand under names, in an object or in an array. -/
structure Found where
  tree? : String → Option Tree
  isArray : Bool

namespace Found

/-- The value of a field among what was found. A field that was not found may have a usual value. -/
def value? (found : Found) (e : Entry) : Option e.field.Carrier :=
  match found.tree? e.field.name with
  | some t => e.take? t
  | none => if found.isArray then e.field.ifShort else e.field.ifAbsent

/-- The values of fields among what was found. -/
def record? (found : Found) : (es : List Entry) → Option (Record (fieldsOf es))
  | [] => some ()
  | e :: es => do return (← found.value? e, ← found.record? es)

end Found

/-- The members of an object under a name. -/
def membersOf (members : List (Gap × Name × Tree)) (name : String) : List (Gap × Name × Tree) :=
  members.filter fun m => decide (m.2.1.string = name)

/-- What is found in the members of an object. -/
def foundIn (members : List (Gap × Name × Tree)) : Found where
  tree? name := (membersOf members name).head?.map fun m => m.2.2
  isArray := false

/-- What is found in the items of an array, of which each stands for the next name. -/
def foundAt (names : List String) (items : List (Gap × Tree)) : Found where
  tree? name := (names.zip (items.map Prod.snd)).lookup name
  isArray := true

/-- What is found in a tree under names. No name may be written twice in an object, and no more
items may be written in an array than there are names. -/
def Tree.found? (names : List String) : Tree → Option Found
  | object members _ =>
      if ∀ name ∈ names, (membersOf members name).length ≤ 1 then some (foundIn members) else none
  | array items _ =>
      if items.length ≤ names.length then some (foundAt names items) else none
  | _ => none

/-- The record that a tree holds. -/
def Tree.record? (es : List Entry) (t : Tree) : Option (Record (fieldsOf es)) := do
  (← t.found? (namesOf es)).record? es

/-- The record that an array holds has its items for fields. -/
theorem Tree.record?_array (es : List Entry) (items : List (Gap × Tree)) (closing : Blanks) :
  (array items closing).record? es =
    if items.length ≤ (namesOf es).length then (foundAt (namesOf es) items).record? es else none
  := by
  rw [record?, found?]
  split <;> rfl

/-- The record that an object holds has its members for fields. -/
theorem Tree.record?_object (es : List Entry) (members : List (Gap × Name × Tree))
    (closing : Blanks) :
  (object members closing).record? es =
    if ∀ name ∈ namesOf es, (membersOf members name).length ≤ 1 then (foundIn members).record? es
    else none
  := by
  rw [record?, found?]
  split <;> rfl

/-- The values of fields depend only on what was found under their names. -/
theorem Found.record?_congr {found found' : Found} {es : List Entry}
    (harray : found.isArray = found'.isArray)
    (h : ∀ e ∈ es, found.tree? e.field.name = found'.tree? e.field.name) :
  found.record? es = found'.record? es
  := by
  induction es with
  | nil => rfl
  | cons e es ih =>
      have hvalue : found.value? e = found'.value? e := by
        rw [value?, value?, h e List.mem_cons_self, harray]
      rw [record?, record?, hvalue, ih fun e' he' => h e' (List.mem_cons_of_mem _ he')]

/-! ### Arrays -/

/-- The record that items stand for. -/
def takeItems? : (es : List Entry) → List (Gap × Tree) → Option (Record (fieldsOf es))
  | [], [] => some ()
  | [], _ :: _ => none
  | e :: es, [] => do return (← e.field.ifShort, ← takeItems? es [])
  | e :: es, (_, t) :: items => do return (← e.take? t, ← takeItems? es items)

/-- The text after the closing bracket of an array, if it comes next. -/
def closed? (cs : List Char) : Option (List Char) :=
  ((do skipBlanks; expect "]" : JsonReader Unit).result? cs).map Prod.snd

/-- The closing bracket may come after blanks. -/
theorem closed?_closing (b : Blanks) (rest : List Char) :
  closed? (b.1 ++ ']' :: rest) = some rest
  := by
  rw [closed?, Reader.result?_bind, result?_skipBlanks, dropWhile_blanks b rfl, Option.bind_some,
    result?_expect_cons ']' rest rfl]
  rfl

/-- No closing bracket comes next where an item does. -/
theorem closed?_item (g : Gap) (isFirst : Bool) (t : Tree) (rest : List Char) :
  closed? (g.chars isFirst ++ (t.chars ++ rest)) = none
  := by
  obtain ⟨cs, hcs⟩ := t.exists_cons
  rw [closed?, Reader.result?_bind, result?_skipBlanks, Option.bind_some]
  cases isFirst with
  | true =>
      rw [Gap.chars, if_pos rfl, List.append_assoc, List.dropWhile_append_of_pos g.before.2, hcs,
        List.cons_append, dropWhile_blanks _ t.initial_ne.1]
      dsimp only
      rw [result?_expect_of_ne t.initial_ne.2.2.1 _ rfl]
      rfl
  | false =>
      rw [Gap.chars, if_neg Bool.false_ne_true, List.append_assoc, List.cons_append,
        dropWhile_blanks _ rfl]
      rfl

/-- Nothing is closed after a number that goes on. -/
theorem closed?_of_isCut {cs : List Char} (h : IsCut cs) :
  closed? cs = none
  := by
  obtain ⟨c, hc, hcut⟩ := h
  cases cs with
  | nil => contradiction
  | cons d ds =>
      obtain rfl := Option.some.inj hc
      rcases hcut with rfl | rfl | rfl <;> rfl

/-- The record that the items of an array are read as, and the text after the closing bracket. -/
def closedItems? (fs : List Field) (isFirst : Bool) (cs : List Char) :
    Option (Record fs × List Char) :=
  ((Record.readItems fs isFirst).result? cs).bind fun x => (closed? x.2).map fun ds => (x.1, ds)

/-- The items of an array are read up to the closing bracket. -/
theorem result?_closedItems (fs : List Field) (isFirst : Bool) (cs : List Char) :
  (do
    let values ← Record.readItems fs isFirst
    skipBlanks
    expect "]"
    return values : JsonReader (Record fs)).result? cs = closedItems? fs isFirst cs
  := by
  rw [Reader.result?_bind, closedItems?]
  cases (Record.readItems fs isFirst).result? cs with
  | none => rfl
  | some x =>
      rw [Option.bind_some, Option.bind_some, closed?, Reader.result?_bind, Reader.result?_bind,
        result?_skipBlanks, Option.bind_some, Option.bind_some, Reader.result?_bind]
      cases (expect "]").result? (x.2.dropWhile isBlank) <;> rfl

/-- One more field is read before the others. -/
theorem closedItems?_cons {f : Field} {fs : List Field} {isFirst more : Bool} {cs ds : List Char}
    (hnext : (nextItem? ']' isFirst).result? cs = some (more, ds)) :
  closedItems? (f :: fs) isFirst cs =
    if more then (f.read.result? ds).bind fun x =>
      (closedItems? fs false x.2).map fun y => ((x.1, y.1), y.2)
    else f.ifShort.bind fun v => (closedItems? fs isFirst ds).map fun y => ((v, y.1), y.2)
  := by
  rw [closedItems?, Record.readItems, Reader.result?_bind, hnext, Option.bind_some]
  cases more with
  | true =>
      dsimp only
      rw [if_pos rfl, if_pos rfl, Reader.result?_bind]
      cases f.read.result? ds with
      | none => rfl
      | some x =>
          rw [Option.bind_some, Option.bind_some, Reader.result?_bind, closedItems?]
          cases (Record.readItems fs false).result? x.2 with
          | none => rfl
          | some y =>
              change (closed? y.2).map _ = ((closed? y.2).map _).map _
              rw [Option.map_map]
              rfl
  | false =>
      dsimp only
      rw [if_neg Bool.false_ne_true, if_neg Bool.false_ne_true]
      cases f.ifShort with
      | none => rfl
      | some v =>
          rw [Option.bind_some, closedItems?]
          dsimp only
          rw [Reader.result?_bind]
          cases (Record.readItems fs isFirst).result? ds with
          | none => rfl
          | some y =>
              change (closed? y.2).map _ = ((closed? y.2).map _).map _
              rw [Option.map_map]
              rfl

/-- No fields are read after a number that goes on. -/
theorem closedItems?_of_isCut (fs : List Field) {cs : List Char} (h : IsCut cs) :
  closedItems? fs false cs = none
  := by
  cases fs with
  | nil =>
      change (closed? cs).map _ = none
      rw [closed?_of_isCut h]
      rfl
  | cons f fs =>
      rw [closedItems?, Record.readItems, Reader.result?_bind,
        result?_nextItem?_of_isCut h (Or.inl rfl)]
      rfl

/-- The items of an array are read as the record that they stand for. -/
theorem closedItems?_eq (es : List Entry) (isFirst : Bool) (items : List (Gap × Tree))
    (closing : Blanks) (rest : List Char) :
  closedItems? (fieldsOf es) isFirst (itemChars isFirst items ++ (closing.1 ++ ']' :: rest)) =
    (takeItems? es items).map (·, rest)
  := by
  induction es generalizing isFirst items closing with
  | nil =>
      change (closed? _).map _ = _
      cases items with
      | nil =>
          rw [itemChars, List.nil_append, closed?_closing]
          rfl
      | cons item items =>
          rw [itemChars, List.append_assoc, List.append_assoc, closed?_item]
          rfl
  | cons e es ih =>
      change closedItems? (e.field :: fieldsOf es) isFirst _ = _
      cases items with
      | nil =>
          have hrest := ih isFirst [] noBlanks
          rw [itemChars, List.nil_append,
            closedItems?_cons (result?_nextItem?_closing closing isFirst rfl rest),
            if_neg Bool.false_ne_true]
          change closedItems? (fieldsOf es) isFirst (']' :: rest) = _ at hrest
          rw [hrest, takeItems?]
          cases e.field.ifShort with
          | none => rfl
          | some v => cases takeItems? es [] <;> rfl
      | cons item items =>
          obtain ⟨g, t⟩ := item
          rw [itemChars, List.append_assoc, List.append_assoc,
            closedItems?_cons (result?_nextItem?_tree g isFirst t (Or.inl rfl) _), if_pos rfl,
            takeItems?]
          rcases e.reads.next t (follows_items items closing rest) with
            heq | ⟨hnone, v, cs, heq, hcut⟩
          · rw [heq]
            cases e.take? t with
            | none => rfl
            | some v =>
                rw [Option.map_some, Option.bind_some, ih false items closing]
                cases takeItems? es items <;> rfl
          · rw [heq, hnone, Option.bind_some, closedItems?_of_isCut _ hcut]
            rfl

/-- The items of an array stand for the fields in turn. -/
theorem takeItems?_eq (es : List Entry) (hnames : (namesOf es).Nodup)
    (items : List (Gap × Tree)) :
  takeItems? es items =
    if items.length ≤ (namesOf es).length then
      (foundAt (namesOf es) items).record? es
    else none
  := by
  induction es generalizing items with
  | nil => cases items <;> rfl
  | cons e es ih =>
      obtain ⟨hname, hnames⟩ := List.nodup_cons.mp hnames
      have hother : ∀ (t : Tree) (names : List String) (ts : List Tree), ∀ e' ∈ es,
          ((e.field.name :: names).zip (t :: ts)).lookup e'.field.name =
            (names.zip ts).lookup e'.field.name := by
        intro t names ts e' he'
        have hne : e'.field.name ≠ e.field.name := by
          intro heq
          exact hname (List.mem_map.mpr ⟨e', he', heq⟩)
        rw [List.zip_cons_cons, List.lookup_cons, beq_eq_false_iff_ne.mpr hne]
      cases items with
      | nil =>
          have hfound : (foundAt (namesOf (e :: es)) []).record? es =
              (foundAt (namesOf es) []).record? es := by
            apply Found.record?_congr
            · rfl
            · intro e' he'
              simp [foundAt]
          have hvalue : (foundAt (namesOf (e :: es)) []).value? e = e.field.ifShort := by
            rw [Found.value?, foundAt]
            simp
          rw [takeItems?, ih hnames, List.length_nil, if_pos (Nat.zero_le (namesOf es).length),
            if_pos (Nat.zero_le (namesOf (e :: es)).length), Found.record?, hfound, hvalue]
      | cons item items =>
          obtain ⟨g, t⟩ := item
          have hfound : (foundAt (namesOf (e :: es)) ((g, t) :: items)).record? es =
              (foundAt (namesOf es) items).record? es := by
            apply Found.record?_congr
            · rfl
            · intro e' he'
              exact hother t _ _ e' he'
          have hvalue : (foundAt (namesOf (e :: es)) ((g, t) :: items)).value? e =
              e.take? t := by
            rw [Found.value?, foundAt]
            simp [namesOf]
          have hlength : (namesOf (e :: es)).length = (namesOf es).length + 1 := rfl
          rw [takeItems?, ih hnames, Found.record?, hfound, hvalue, List.length_cons, hlength]
          by_cases hle : items.length ≤ (namesOf es).length
          · rw [if_pos hle, if_pos (Nat.succ_le_succ hle)]
          · rw [if_neg hle, if_neg fun h => hle (Nat.le_of_succ_le_succ h)]
            cases e.take? t <;> rfl

/-! ### Objects -/

/-- The values of fields after a member of a name. -/
def fill? (name : String) (t : Tree) : (es : List Entry) → Partial (fieldsOf es) →
    Option (Partial (fieldsOf es))
  | [], () => some ()
  | e :: es, (value, rest) =>
      if e.field.name = name then
        if value.isSome then none else (e.take? t).map fun v => (some v, rest)
      else (fill? name t es rest).map fun rest => (value, rest)

/-- The values of fields that are completed. -/
def complete? : (es : List Entry) → Partial (fieldsOf es) → Option (Record (fieldsOf es))
  | [], () => some ()
  | e :: es, (value, rest) => do return (← value.or e.field.ifAbsent, ← complete? es rest)

/-- The values of fields are completed without looking at the text. -/
theorem result?_complete (es : List Entry) (values : Partial (fieldsOf es)) (cs : List Char) :
  (Partial.complete (fieldsOf es) values).result? cs = (complete? es values).map (·, cs)
  := by
  induction es with
  | nil => rfl
  | cons e es ih =>
      obtain ⟨value, rest⟩ := values
      change (Partial.complete (e.field :: fieldsOf es) (value, rest)).result? cs = _
      rw [Partial.complete, complete?]
      cases value.or e.field.ifAbsent with
      | none => rfl
      | some v =>
          dsimp only
          rw [Reader.result?_bind, ih rest]
          cases complete? es rest <;> rfl

/-- The member of a name fills its field, or is passed over. -/
theorem fill_eq (es : List Entry) (values : Partial (fieldsOf es)) (n : Name) (t : Tree)
    {rest : List Char} (hrest : Follows rest) :
  let cs := n.before.1 ++ ':' :: (n.after.1 ++ (t.chars ++ rest))
  (Partial.fill n.string (fieldsOf es) values).result? cs =
      (fill? n.string t es values).map (·, rest) ∨
    fill? n.string t es values = none ∧
      ∃ values' ds, (Partial.fill n.string (fieldsOf es) values).result? cs = some (values', ds) ∧
        IsCut ds
  := by
  intro cs
  induction es with
  | nil =>
      left
      change (do expectColon; skipValue : JsonReader Unit).result? cs = _
      rw [Reader.result?_bind, result?_expectColon, Option.bind_some]
      exact result?_skipValue n.after t hrest
  | cons e es ih =>
      obtain ⟨value, values⟩ := values
      change (Partial.fill n.string (e.field :: fieldsOf es) (value, values)).result? cs = _ ∨
        fill? n.string t (e :: es) (value, values) = none ∧
          ∃ values' ds,
            (Partial.fill n.string (e.field :: fieldsOf es) (value, values)).result? cs =
              some (values', ds) ∧ IsCut ds
      rw [fill?]
      by_cases hname : e.field.name = n.string
      · rw [if_pos hname]
        cases value with
        | some v =>
            left
            rw [Partial.fill, if_pos hname]
            rfl
        | none =>
            have hfill :
                (Partial.fill n.string (e.field :: fieldsOf es) (none, values)).result? cs =
                (do return (some (← e.field.read), values) :
                  JsonReader (Partial (fieldsOf (e :: es)))).result?
                    (n.after.1 ++ (t.chars ++ rest)) := by
              rw [Partial.fill, if_pos hname]
              change (do
                  expectColon
                  return (some (← e.field.read), values) :
                JsonReader (Partial (fieldsOf (e :: es)))).result? cs = _
              rw [Reader.result?_bind, result?_expectColon, Option.bind_some]
            rw [hfill, Option.isSome_none, if_neg Bool.false_ne_true]
            exact e.reads.map (fun v => ((some v, values) : Partial (fieldsOf (e :: es)))) n.after t
              rest hrest
      · rw [if_neg hname, Partial.fill, if_neg hname, Reader.result?_bind]
        rcases ih values with heq | ⟨hnone, values', ds, heq, hcut⟩
        · left
          rw [heq]
          cases fill? n.string t es values <;> rfl
        · right
          rw [heq, hnone]
          exact ⟨rfl, (value, values'), ds, rfl, hcut⟩

/-- The next member of an object fills its field, or is passed over. -/
theorem nextMember?_eq (es : List Entry) (isFirst : Bool) (values : Partial (fieldsOf es)) (g : Gap)
    (n : Name) (t : Tree) {rest : List Char} (hrest : Follows rest) :
  let cs := g.chars isFirst ++ (n.chars ++ (n.after.1 ++ (t.chars ++ rest)))
  (Record.nextMember? (fieldsOf es) (isFirst, values)).result? cs =
      (fill? n.string t es values).map (fun values' => (some (false, values'), rest)) ∨
    fill? n.string t es values = none ∧
      ∃ values' ds, (Record.nextMember? (fieldsOf es) (isFirst, values)).result? cs =
        some (some (false, values'), ds) ∧ IsCut ds
  := by
  intro cs
  have hcs : cs = g.chars isFirst ++ (n.letters.chars ++
      (n.before.1 ++ ':' :: (n.after.1 ++ (t.chars ++ rest)))) := by
    simp [cs, Name.chars]
  rw [hcs, Record.nextMember?, Reader.result?_bind, result?_nextItem?_name, Option.bind_some]
  dsimp only
  rw [if_pos rfl, Reader.result?_bind, result?_text, Option.bind_some]
  dsimp only
  rw [Reader.result?_bind]
  rcases fill_eq es values n t hrest with heq | ⟨hnone, values', ds, heq, hcut⟩
  · left
    change (Partial.fill n.letters.string _ values).result? _ = _ at heq
    rw [heq]
    cases fill? n.string t es values <;> rfl
  · right
    change (Partial.fill n.letters.string _ values).result? _ = _ at heq
    rw [heq]
    exact ⟨hnone, values', ds, rfl, hcut⟩

/-- There is no member before the closing brace. -/
theorem nextMember?_closing (fs : List Field) (isFirst : Bool) (values : Partial fs) (b : Blanks)
    (rest : List Char) :
  (Record.nextMember? fs (isFirst, values)).result? (b.1 ++ '}' :: rest) = some (none, '}' :: rest)
  := by
  rw [Record.nextMember?, Reader.result?_bind, result?_nextItem?_closing b isFirst rfl]
  rfl

/-- There is no member after a number that goes on. -/
theorem nextMember?_of_isCut (fs : List Field) (values : Partial fs) {cs : List Char}
    (h : IsCut cs) :
  (Record.nextMember? fs (false, values)).result? cs = none
  := by
  rw [Record.nextMember?, Reader.result?_bind, result?_nextItem?_of_isCut h (Or.inr rfl)]
  rfl

/-- The values of fields after the members of an object. -/
def fillAll? (es : List Entry) (members : List (Gap × Name × Tree))
    (values : Partial (fieldsOf es)) : Option (Partial (fieldsOf es)) :=
  members.foldlM (fun values m => fill? m.2.1.string m.2.2 es values) values

/-- As many members as there are fill the fields. -/
theorem result?_iterate_members (es : List Entry) (members : List (Gap × Name × Tree))
    (isFirst : Bool) (values : Partial (fieldsOf es)) (closing : Blanks) (rest : List Char)
    {n : Nat} (hn : members.length < n) :
  ((Reader.iterateUpTo .malformed (Record.nextMember? (fieldsOf es)) n (isFirst, values)).result?
      (memberChars isFirst members ++ (closing.1 ++ '}' :: rest))).map (fun x => (x.1.2, x.2)) =
    (fillAll? es members values).map (·, '}' :: rest)
  := by
  induction members generalizing isFirst values n with
  | nil =>
      cases n with
      | zero => contradiction
      | succ n =>
          rw [memberChars, List.nil_append, Reader.iterateUpTo, Reader.result?_bind,
            nextMember?_closing]
          rfl
  | cons m members ih =>
      obtain ⟨g, name, t⟩ := m
      cases n with
      | zero => contradiction
      | succ n =>
          rw [memberChars, List.append_assoc, List.append_assoc, List.append_assoc,
            List.append_assoc, Reader.iterateUpTo, Reader.result?_bind, fillAll?, List.foldlM_cons]
          dsimp only
          have hfollows := follows_members members closing rest
          rcases nextMember?_eq es isFirst values g name t hfollows with
            heq | ⟨hnone, values', ds, heq, hcut⟩
          · rw [heq]
            cases fill? name.string t es values with
            | none => rfl
            | some values' =>
                rw [Option.map_some, Option.bind_some]
                exact ih false values' (Nat.lt_of_succ_lt_succ hn)
          · rw [heq, hnone, Option.bind_some]
            dsimp only
            cases n with
            | zero => rfl
            | succ n =>
                rw [Reader.iterateUpTo, Reader.result?_bind, nextMember?_of_isCut _ _ hcut]
                rfl

/-- A member of another name is passed over. -/
theorem fill?_of_not_mem {name : String} {es : List Entry} (h : name ∉ namesOf es) (t : Tree)
    (values : Partial (fieldsOf es)) :
  fill? name t es values = some values
  := by
  induction es with
  | nil => rfl
  | cons e es ih =>
      obtain ⟨value, rest⟩ := values
      obtain ⟨hne, hother⟩ := not_or.mp fun hor => h (List.mem_cons.mpr hor)
      rw [fill?, if_neg fun heq => hne heq.symm, ih hother]
      rfl

/-- The value of one field after the members of an object. -/
def fillOwn? (e : Entry) (members : List (Gap × Name × Tree)) (value : Option e.field.Carrier) :
    Option (Option e.field.Carrier) :=
  match membersOf members e.field.name with
  | [] => some value
  | [m] => if value.isSome then none else (e.take? m.2.2).map some
  | _ => none

/-- One more member fills the field of its name, unless it is filled already. -/
theorem fillOwn?_cons (e : Entry) (m : Gap × Name × Tree) (members : List (Gap × Name × Tree))
    (value : Option e.field.Carrier) :
  fillOwn? e (m :: members) value =
    if e.field.name = m.2.1.string then
      (if value.isSome then none else (e.take? m.2.2).map some).bind (fillOwn? e members)
    else fillOwn? e members value
  := by
  by_cases hname : e.field.name = m.2.1.string
  · have hmembers : membersOf (m :: members) e.field.name =
        m :: membersOf members e.field.name := List.filter_cons_of_pos (by simp [hname])
    rw [if_pos hname, fillOwn?, hmembers]
    cases hms : membersOf members e.field.name with
    | nil =>
        cases value with
        | some v => rfl
        | none => cases htake : e.take? m.2.2 <;> simp [htake, fillOwn?, hms]
    | cons m' ms =>
        have hfilled : ∀ v, fillOwn? e members (some v) = none := by
          intro v
          rw [fillOwn?, hms]
          cases ms <;> rfl
        cases value with
        | some v => rfl
        | none => cases e.take? m.2.2 <;> simp [hfilled]
  · have hmembers : membersOf (m :: members) e.field.name = membersOf members e.field.name :=
      List.filter_cons_of_neg (by simpa using fun h => hname h.symm)
    rw [if_neg hname, fillOwn?, hmembers, fillOwn?]

/-- The members of an object fill each field by itself. -/
theorem fillAll?_cons {e : Entry} {es : List Entry} (hname : e.field.name ∉ namesOf es)
    (members : List (Gap × Name × Tree)) (value : Option e.field.Carrier)
    (values : Partial (fieldsOf es)) :
  fillAll? (e :: es) members (value, values) =
    (fillOwn? e members value).bind fun value' =>
      (fillAll? es members values).map fun values' => (value', values')
  := by
  induction members generalizing value values with
  | nil => rfl
  | cons m members ih =>
      have hstep : fillAll? es (m :: members) values =
          (fill? m.2.1.string m.2.2 es values).bind (fillAll? es members) := rfl
      have hstep' : fillAll? (e :: es) (m :: members) (value, values) =
          (fill? m.2.1.string m.2.2 (e :: es) (value, values)).bind
            (fillAll? (e :: es) members) := rfl
      rw [hstep, hstep', fillOwn?_cons, fill?]
      by_cases heq : e.field.name = m.2.1.string
      · rw [if_pos heq, if_pos heq, fill?_of_not_mem (heq ▸ hname), Option.bind_some]
        cases value with
        | some v => rfl
        | none =>
            rw [Option.isSome_none, if_neg Bool.false_ne_true, if_neg Bool.false_ne_true]
            cases e.take? m.2.2 with
            | none => rfl
            | some v => exact ih (some v) values
      · rw [if_neg heq, if_neg heq]
        cases fill? m.2.1.string m.2.2 es values with
        | none => cases fillOwn? e members value <;> rfl
        | some values' => exact ih value values'

/-- The value of a field is found under its name, unless it is written twice. -/
theorem fillOwn?_eq (e : Entry) (members : List (Gap × Name × Tree)) :
  ((fillOwn? e members none).bind fun value => value.or e.field.ifAbsent) =
    if (membersOf members e.field.name).length ≤ 1 then (foundIn members).value? e else none
  := by
  rw [fillOwn?, Found.value?, foundIn]
  dsimp only
  cases membersOf members e.field.name with
  | nil => rfl
  | cons m ms =>
      cases ms with
      | nil =>
          dsimp only [List.head?_cons, Option.map_some]
          cases e.take? m.2.2 <;> rfl
      | cons m' ms => rfl

/-- The values of the fields of an object are found under their names. -/
theorem complete?_fillAll? (es : List Entry) (hnames : (namesOf es).Nodup)
    (members : List (Gap × Name × Tree)) :
  (fillAll? es members (Partial.empty (fieldsOf es))).bind (complete? es) =
    if ∀ name ∈ namesOf es, (membersOf members name).length ≤ 1 then (foundIn members).record? es
    else none
  := by
  induction es with
  | nil =>
      have hfill : fillAll? [] members () = some () := by
        induction members with
        | nil => rfl
        | cons m members ih => exact ih
      rw [if_pos (fun e he => nomatch he)]
      exact congrArg (fun x => x.bind (complete? [])) hfill
  | cons e es ih =>
      obtain ⟨hname, hnames⟩ := List.nodup_cons.mp hnames
      have hown := fillOwn?_eq e members
      have hrest := ih hnames
      have hsplit : (fillAll? (e :: es) members (none, Partial.empty (fieldsOf es))).bind
          (complete? (e :: es)) =
          ((fillOwn? e members none).bind fun value => value.or e.field.ifAbsent).bind fun v =>
            ((fillAll? es members (Partial.empty (fieldsOf es))).bind (complete? es)).map
              fun r => (v, r) := by
        rw [fillAll?_cons hname]
        cases fillOwn? e members none with
        | none => rfl
        | some value =>
            rw [Option.bind_some, Option.bind_some]
            cases fillAll? es members (Partial.empty (fieldsOf es)) with
            | none => cases value.or e.field.ifAbsent <;> rfl
            | some values =>
                rw [Option.map_some, Option.bind_some, Option.bind_some, complete?]
                cases value.or e.field.ifAbsent with
                | none => rfl
                | some v => cases complete? es values <;> rfl
      change (fillAll? (e :: es) members (none, Partial.empty (fieldsOf es))).bind _ = _
      have hall : (∀ name ∈ namesOf (e :: es), (membersOf members name).length ≤ 1) ↔
          (membersOf members e.field.name).length ≤ 1 ∧
            ∀ name ∈ namesOf es, (membersOf members name).length ≤ 1 := List.forall_mem_cons
      rw [hsplit, hown, hrest, Found.record?]
      by_cases hfirst : (membersOf members e.field.name).length ≤ 1
      · rw [if_pos hfirst]
        by_cases hothers : ∀ name ∈ namesOf es, (membersOf members name).length ≤ 1
        · rw [if_pos hothers, if_pos (hall.mpr ⟨hfirst, hothers⟩)]
          cases (foundIn members).value? e with
          | none => rfl
          | some v => cases (foundIn members).record? es <;> rfl
        · rw [if_neg hothers, if_neg fun h => hothers (hall.mp h).2]
          cases (foundIn members).value? e <;> rfl
      · rw [if_neg hfirst, if_neg fun h => hfirst (hall.mp h).1]
        rfl

/-- A member takes some place. -/
theorem length_le_memberChars (isFirst : Bool) (members : List (Gap × Name × Tree)) :
  members.length ≤ (memberChars isFirst members).length
  := by
  induction members generalizing isFirst with
  | nil => exact Nat.zero_le _
  | cons m members ih =>
      obtain ⟨cs, hcs⟩ := m.2.2.exists_cons
      have hrest := ih false
      rw [memberChars, hcs]
      simp only [List.length_append, List.length_cons]
      omega

/-- The members of an object are read as the record that is found in them. -/
theorem result?_readMembers (es : List Entry) (hnames : (namesOf es).Nodup)
    (members : List (Gap × Name × Tree)) (closing : Blanks) (rest : List Char) :
  (Record.readMembers (fieldsOf es)).result?
      (memberChars true members ++ (closing.1 ++ '}' :: rest)) =
    ((Tree.object members closing).record? es).map (·, '}' :: rest)
  := by
  have hlength := length_le_memberChars true members
  have hmembers := result?_iterate_members es members true (Partial.empty (fieldsOf es)) closing
    rest (n := (memberChars true members ++ (closing.1 ++ '}' :: rest)).length + 1)
    (by rw [List.length_append]; omega)
  rw [Record.readMembers, Reader.result?_bind, Reader.iterateUntilNone, Reader.result?_bind,
    Reader.result?_get, Option.bind_some, Tree.record?_object, ← complete?_fillAll? es hnames]
  dsimp only
  cases hiterate : (Reader.iterateUpTo .malformed (Record.nextMember? (fieldsOf es))
      ((memberChars true members ++ (closing.1 ++ '}' :: rest)).length + 1)
      (true, Partial.empty (fieldsOf es))).result?
        (memberChars true members ++ (closing.1 ++ '}' :: rest)) with
  | none =>
      rw [hiterate, Option.map_none] at hmembers
      rw [Option.map_eq_none_iff.mp hmembers.symm]
      rfl
  | some x =>
      rw [hiterate, Option.map_some] at hmembers
      obtain ⟨values, hvalues, hx⟩ := Option.map_eq_some_iff.mp hmembers.symm
      obtain ⟨⟨isFirst, values'⟩, cs⟩ := x
      obtain ⟨rfl, rfl⟩ := Prod.mk.inj hx
      rw [hvalues, Option.bind_some, Option.bind_some]
      exact result?_complete es values _

/-- A record is read from a tree, whatever comes after it. -/
theorem result?_record (es : List Entry) (hnames : (namesOf es).Nodup) (b : Blanks) (t : Tree)
    (rest : List Char) :
  (Record.read (fieldsOf es)).result? (b.1 ++ (t.chars ++ rest)) = (t.record? es).map (·, rest)
  := by
  rw [Record.read, result?_peek_tree]
  cases t with
  | array items closing =>
      have hchars : (Tree.array items closing).chars ++ rest =
          '[' :: (itemChars true items ++ (closing.1 ++ ']' :: rest)) := by
        rw [Tree.chars]
        simp
      rw [hchars]
      change (do
          let values ← Record.readItems (fieldsOf es) true
          skipBlanks
          expect "]"
          return values : JsonReader (Record (fieldsOf es))).result? _ = _
      rw [List.tail_cons, result?_closedItems, closedItems?_eq, takeItems?_eq es hnames,
        Tree.record?_array]
  | object members closing =>
      have hchars : (Tree.object members closing).chars ++ rest =
          '{' :: (memberChars true members ++ (closing.1 ++ '}' :: rest)) := by
        rw [Tree.chars]
        simp
      rw [hchars]
      change (do
          let values ← Record.readMembers (fieldsOf es)
          expect "\x7d"
          return values : JsonReader (Record (fieldsOf es))).result? _ = _
      rw [List.tail_cons, Reader.result?_bind,
        result?_readMembers es hnames members closing rest]
      cases (Tree.object members closing).record? es with
      | none => rfl
      | some r =>
          rw [Option.map_some, Option.bind_some]
          dsimp only
          rw [Reader.result?_bind, result?_expect_cons '}' rest rfl]
          rfl
  | number n =>
      have hstarts := (Tree.number n).startsNumber_initial
      generalize (Tree.number n).initial = c at hstarts
      split
      next h =>
        obtain rfl := Option.some.inj h
        contradiction
      next h =>
        obtain rfl := Option.some.inj h
        contradiction
      next => apply result?_refuse
  | null => apply result?_refuse
  | bool x => cases x <;> apply result?_refuse
  | text s => apply result?_refuse

/-- A record is read. -/
theorem reads_record (es : List Entry) (hnames : (namesOf es).Nodup) :
  Reads (Record.read (fieldsOf es)) (Tree.record? es)
  := fun b t rest _ => Or.inl (result?_record es hnames b t rest)

/-! ### Fields of different kinds -/

section

variable {α : Type} (name : String) {reader : JsonReader α} {take? : Tree → Option α}
  (h : Reads reader take?)

/-- A field that must be written. -/
def Entry.required : Entry :=
  ⟨.required name reader, take?, h⟩

/-- A field that may be left out, and then has a usual value. -/
def Entry.usual (value : α) : Entry :=
  ⟨.usual name reader value, take?, h⟩

/-- A field that may be null, or left out of an object. -/
def Entry.optional : Entry :=
  ⟨.optional name reader, Tree.nullable? take?, h.nullable⟩

namespace Found

/-- The value under a name that must be there. -/
def required? (found : Found) (take? : Tree → Option α) (name : String) : Option α := do
  take? (← found.tree? name)

variable (found : Found)

@[simp] theorem value?_required :
  found.value? (.required name h) = found.required? take? name
  := by
  rw [value?, required?]
  change (match found.tree? name with
    | some t => take? t
    | none => if found.isArray then none else none) = _
  cases found.tree? name with
  | none => exact ite_self none
  | some t => rfl

/-- What is made of the values of fields among what was found, one after another. -/
def make? {β : Type} (found : Found) : (es : List Entry) → (Record (fieldsOf es) → β) → Option β
  | [], f => some (f ())
  | e :: es, f => do
      let v ← found.value? e
      found.make? es fun r => f (v, r)

/-- What is made of a record is made of its values one after another. -/
theorem map_record? {β : Type} (found : Found) (es : List Entry) (f : Record (fieldsOf es) → β) :
  (found.record? es).map f = found.make? es f
  := by
  induction es with
  | nil => rfl
  | cons e es ih =>
      rw [record?, make?]
      cases found.value? e with
      | none => rfl
      | some v =>
          change ((found.record? es).bind fun r => some (v, r)).map f = found.make? es _
          rw [← ih]
          cases found.record? es <;> rfl

end Found

end

end DelegatedAccess.Json
