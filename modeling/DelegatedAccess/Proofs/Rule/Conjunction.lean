import DelegatedAccess.Proofs.Rule.Alike
import DelegatedAccess.Proofs.Rule.Correctness
import DelegatedAccess.Proofs.Rule.Relocation

/-!
# Sequences one after another

One sequence can be put after another when the operands of its rules are moved up by the length
of the other. No rule of either refers to a rule of the other, so that the top-level rules are
those of both, and the rules of each are evaluated as they are by themselves.

The main result of this module is that two well-structured sequences one after another are well
structured, and that they pass when both pass: the second one is evaluated when the first one
passes, and under any limit.
-/

namespace DelegatedAccess

/-! ### Lists that are asked -/

section

variable {ι κ : Type} {m : Type → Type} [Monad m]

/-- To ask whether all of other items pass is to ask the items in another way. -/
theorem allM_map (g : ι → κ) (f : κ → m Bool) (is : List ι) :
  (is.map g).allM f = is.allM fun i => f (g i)
  := by
  induction is with
  | nil => rfl
  | cons i is ih => rw [List.map_cons, List.allM, List.allM, ih]

/-- Whether all of two lists pass one after the other is asked of the second when all of the first
pass. -/
theorem allM_append [LawfulMonad m] (f : ι → m Bool) (is js : List ι) :
  (is ++ js).allM f = (do if ← is.allM f then js.allM f else return false)
  := by
  induction is with
  | nil => simp [List.allM]
  | cons i is ih =>
      rw [List.cons_append, List.allM, List.allM, bind_assoc]
      apply bind_congr
      intro x
      cases x with
      | true => exact ih
      | false => simp

end

namespace Rule

/-- One sequence after another, with its operands moved up. -/
def conjoin (xs ys : List Rule) : List Rule :=
  xs ++ shiftAll xs.length ys

variable {xs ys : List Rule}

/-! ### Structure -/

/-- The rules of both sequences are there. -/
@[simp] theorem length_conjoin (xs ys : List Rule) :
  (conjoin xs ys).length = xs.length + ys.length
  := by
  simp [conjoin, shiftAll]

/-- The first sequence stands at the beginning. -/
theorem getElem?_conjoin_left {i : Nat} (hi : i < xs.length) :
  (conjoin xs ys)[i]? = xs[i]?
  := List.getElem?_append_left hi

/-- The second sequence follows it. -/
theorem getElem?_conjoin_right (i : Nat) :
  (conjoin xs ys)[xs.length + i]? = ys[i]?.map (shift xs.length)
  := by
  rw [conjoin, List.getElem?_append_right (Nat.le_add_right _ _), Nat.add_sub_cancel_left, shiftAll,
    List.getElem?_map]

/-- The first sequence is in its place. -/
theorem placed_left (hxs : InRange xs) (hroom : xs.length + ys.length ≤ UInt32.size) :
  Placed 0 xs (conjoin xs ys)
  where
  inRange := hxs
  room := by omega
  lookup i r hr := by
    have hi := (List.getElem?_eq_some_iff.mp hr).1
    rw [Nat.zero_add, getElem?_conjoin_left hi, hr, shift_zero]

/-- The second sequence is in its place. -/
theorem placed_right (hys : InRange ys) (hroom : xs.length + ys.length ≤ UInt32.size) :
  Placed xs.length ys (conjoin xs ys)
  where
  inRange := hys
  room := hroom
  lookup i r hr := by
    rw [getElem?_conjoin_right, hr]
    rfl

/-- The top-level rules of a sequence are those to which no rule refers. -/
theorem topLevel_eq (rules : List Rule) [DecidablePred fun i => ∀ j, ¬ Refers rules j i] :
  topLevel rules = (List.range rules.length).filter fun i => ∀ j, ¬ Refers rules j i
  := by
  rw [topLevel]
  apply List.filter_congr
  intro i _
  apply decide_eq_decide.mpr
  constructor
  · intro h j hji
    obtain ⟨r, hr, k, hk, heq⟩ := refers_iff.mp hji
    exact h r (List.mem_of_getElem? hr) k hk heq
  · intro h r hr k hk heq
    obtain ⟨j, hj⟩ := List.mem_iff_getElem?.mp hr
    exact h j (refers_iff.mpr ⟨r, hj, k, hk, heq⟩)

section

variable (hxs : InRange xs) (hys : InRange ys) (hroom : xs.length + ys.length ≤ UInt32.size)

include hxs hys hroom

/-- Rules refer to rules of their own sequence. -/
theorem refers_conjoin_iff {i j : Nat} :
  Refers (conjoin xs ys) i j ↔
    Refers xs i j ∨ ∃ k l, Refers ys k l ∧ i = xs.length + k ∧ j = xs.length + l
  := by
  have hleft : Placed 0 xs (conjoin xs ys) := placed_left hxs hroom
  have hright : Placed xs.length ys (conjoin xs ys) := placed_right hys hroom
  constructor
  · intro hij
    rcases Nat.lt_or_ge i xs.length with hi | hi
    · left
      rw [← Nat.zero_add i] at hij
      obtain ⟨k, hik, rfl⟩ := (hleft.refers_iff hi).mp hij
      rwa [Nat.zero_add]
    · right
      obtain ⟨k, rfl⟩ := Nat.exists_eq_add_of_le hi
      have hk := hij.lt
      rw [length_conjoin] at hk
      obtain ⟨l, hkl, rfl⟩ := (hright.refers_iff (by omega)).mp hij
      exact ⟨k, l, hkl, rfl, rfl⟩
  · rintro (hij | ⟨k, l, hkl, rfl, rfl⟩)
    · have hplaced := (hleft.refers_iff hij.lt).mpr ⟨j, hij, rfl⟩
      rwa [Nat.zero_add, Nat.zero_add] at hplaced
    · exact (hright.refers_iff hkl.lt).mpr ⟨l, hkl, rfl⟩

/-- Operands of both sequences are rules. -/
theorem inRange_conjoin :
  InRange (conjoin xs ys)
  := by
  intro i j hij
  rw [length_conjoin]
  rcases (refers_conjoin_iff hxs hys hroom).mp hij with hij | ⟨k, l, hkl, _, rfl⟩
  · have := hxs i j hij
    omega
  · have := hys k l hkl
    omega

/-- No rule depends on itself when none did in its own sequence. -/
theorem isAcyclic_conjoin (hacyclic : IsAcyclic xs) (hacyclic' : IsAcyclic ys) :
  IsAcyclic (conjoin xs ys)
  := by
  intro i hi
  have hlt : i < (conjoin xs ys).length := by
    obtain ⟨j, hij, _⟩ := Relation.TransGen.head'_iff.mp hi
    exact hij.lt
  rw [length_conjoin] at hlt
  rcases Nat.lt_or_ge i xs.length with hleft | hright
  · rw [← Nat.zero_add i] at hi
    obtain ⟨k, hik, heq⟩ := (placed_left hxs hroom).transGen hleft hi
    obtain rfl := Nat.add_left_cancel heq
    exact hacyclic i hik
  · obtain ⟨k, rfl⟩ := Nat.exists_eq_add_of_le hright
    obtain ⟨l, hkl, heq⟩ := (placed_right hys hroom).transGen (by omega) hi
    obtain rfl := Nat.add_left_cancel heq
    exact hacyclic' k hkl

/-- The top-level rules are those of both sequences. -/
theorem topLevel_conjoin :
  topLevel (conjoin xs ys) = topLevel xs ++ (topLevel ys).map (xs.length + ·)
  := by
  classical
  rw [topLevel_eq, topLevel_eq, topLevel_eq, length_conjoin, List.range_add, List.filter_append,
    List.filter_map]
  congr 1
  · apply List.filter_congr
    intro i hi
    apply decide_eq_decide.mpr
    apply forall_congr'
    intro j
    rw [refers_conjoin_iff hxs hys hroom, not_or, and_iff_left]
    rintro ⟨_, l, _, _, rfl⟩
    have := List.mem_range.mp hi
    omega
  · congr 1
    apply List.filter_congr
    intro i _
    apply decide_eq_decide.mpr
    constructor
    · intro h j hji
      apply h (xs.length + j)
      rw [refers_conjoin_iff hxs hys hroom]
      exact .inr ⟨j, i, hji, rfl, rfl⟩
    · intro h j hji
      rcases (refers_conjoin_iff hxs hys hroom).mp hji with hji | ⟨k, l, hkl, _, heq⟩
      · exact absurd (hxs j _ hji) (Nat.not_lt.mpr (Nat.le_add_right _ _))
      · obtain rfl := Nat.add_left_cancel heq
        exact h k hkl

end

/-- A sequence is accepted when its operands are rules and no rule depends on itself. -/
theorem checkStructure_ok_iff {rules : List Rule} :
  checkStructure rules = .ok () ↔ InRange rules ∧ IsAcyclic rules
  := checkStructure_eq_iff fun _ => nofun

/-- Two sequences one after another are accepted when each is. -/
theorem checkStructure_conjoin (hxs : checkStructure xs = .ok ()) (hys : checkStructure ys = .ok ())
    (hroom : xs.length + ys.length ≤ UInt32.size) :
  checkStructure (conjoin xs ys) = .ok ()
  := by
  rw [checkStructure_ok_iff] at hxs hys ⊢
  exact ⟨inRange_conjoin hxs.1 hys.1 hroom, isAcyclic_conjoin hxs.1 hys.1 hroom hxs.2 hys.2⟩

/-! ### Evaluation -/

variable {σ : Type}

/-- Asks for the rules at some indices, one after the other as long as they pass. -/
def allAt (rules : List Rule) (panel : Panel σ) (req : Request) (limit : Nat) (is : List Nat) :
    StateT (Vector Mark rules.length) (ExceptT RuleError (StateM σ)) Bool :=
  is.allM fun i => evalAt rules panel req limit (limit + 1) i i

/-- More rules are asked for when the first ones pass. -/
theorem allAt_append (rules : List Rule) (panel : Panel σ) (req : Request) (limit : Nat)
    (is js : List Nat) :
  allAt rules panel req limit (is ++ js) = (do
    if ← allAt rules panel req limit is then allAt rules panel req limit js else return false)
  := allM_append _ is js

/-- A sequence the top-level rules of which are found is evaluated by asking for these. -/
theorem evaluate_of_roots {rules : List Rule} {is : List (Fin rules.length)}
    (h : roots rules = .ok is) (panel : Panel σ) (req : Request) (limit : Nat) :
  evaluate rules panel req limit =
    (allAt rules panel req limit (is.map Fin.val)).run' (Vector.replicate rules.length .pending)
  := by
  rw [evaluate, h, allAt, allM_map]

/-- An accepted sequence is evaluated by asking for its top-level rules. -/
theorem evaluate_of_checkStructure {rules : List Rule} (h : checkStructure rules = .ok ())
    (panel : Panel σ) (req : Request) (limit : Nat) :
  evaluate rules panel req limit =
    (allAt rules panel req limit (topLevel rules)).run' (Vector.replicate rules.length .pending)
  := by
  rw [evaluate_of_roots (of_checkStructure h).1, map_sources]

/-- The top-level rules of a sequence in its place are asked for as they are by themselves. -/
theorem Placed.translates_allAt {g : Nat} {rules rules' : List Rule} (h : Placed g rules rules')
    (around : Vector Mark rules'.length) (panel : Panel σ) (req : Request) (limit : Nat) :
  Translates (putIn g around) (RuleError.shift g) (allAt rules panel req limit (topLevel rules))
    (allAt rules' panel req limit ((topLevel rules).map (g + ·)))
  := by
  rw [allAt, allAt, allM_map]
  apply Translates.isCongruence.allM
  intro i hi
  have hlt : i < rules.length := List.mem_range.mp (List.mem_of_mem_filter hi)
  exact h.translates_evalAt around panel req limit (limit + 1) i (g + i) hlt

/-- Two sequences one after another are evaluated one after the other, the second only when the
first passes. -/
theorem evaluate_conjoin (hxs : checkStructure xs = .ok ()) (hys : checkStructure ys = .ok ())
    (hroom : xs.length + ys.length ≤ UInt32.size) (panel : Panel σ) (req : Request)
    (limit : Nat) :
  evaluate (conjoin xs ys) panel req limit = (do
    if ← evaluate xs panel req limit then
      ExceptT.adapt (RuleError.shift xs.length) (evaluate ys panel req limit)
    else return false)
  := by
  have hin := (checkStructure_ok_iff.mp hxs).1
  have hin' := (checkStructure_ok_iff.mp hys).1
  have hcheck := checkStructure_conjoin hxs hys hroom
  -- nothing is noted before the first sequence, and nothing on the second one after it
  let start : Vector Mark (conjoin xs ys).length := .replicate _ .pending
  have hstart : putIn 0 start (.replicate xs.length .pending) = start :=
    putIn_pending fun j hj _ => Vector.getElem_replicate hj
  have hnext : ∀ marks : Vector Mark xs.length,
      putIn xs.length (putIn 0 start marks) (.replicate ys.length .pending) =
        putIn 0 start marks := by
    intro marks
    apply putIn_pending
    intro j hj hle
    rw [getElem_putIn_eq, dif_neg (by omega), Vector.getElem_replicate]
  have hleft := (placed_left hin hroom).translates_allAt start panel req limit
  simp only [Nat.zero_add, List.map_id'] at hleft
  rw [evaluate_of_checkStructure hcheck, topLevel_conjoin hin hin' hroom, allAt_append,
    evaluate_of_checkStructure hxs, evaluate_of_checkStructure hys]
  change StateT.run' _ start = _
  rw [← hstart]
  apply hleft.run'_bind RuleError.shift_zero
  intro x marks
  cases x with
  | true =>
      have hright :=
        (placed_right hin' hroom).translates_allAt (putIn 0 start marks) panel req limit
      rw [← hnext marks]
      apply hright.run'
  | false => rfl

/-- Two well-structured sequences one after another are well structured, with the top-level rules
of both. They come to what the first one comes to unless this passes, and then to what the second
one comes to, where errors name rules at their new places. So they pass when both pass. -/
theorem conjoin_conjunction (hxs : checkStructure xs = .ok ()) (hys : checkStructure ys = .ok ())
    (hroom : xs.length + ys.length ≤ UInt32.size) :
  checkStructure (conjoin xs ys) = .ok () ∧
    (∃ is js ks, roots xs = .ok is ∧ roots ys = .ok js ∧ roots (conjoin xs ys) = .ok ks ∧
      ks.map Fin.val = is.map Fin.val ++ js.map fun j => xs.length + j.val) ∧
    ∀ (σ : Type) (panel : Panel σ) (answers : Answers), panel.AnswersAs answers →
      ∀ (req : Request) (limit : Nat) (s : σ),
        ((evaluate (conjoin xs ys) panel req limit).run.run s).1 =
          (match ((evaluate xs panel req limit).run.run s).1 with
          | .ok true =>
              ((evaluate ys panel req limit).run.run s).1.mapError (RuleError.shift xs.length)
          | x => x) ∧
        (((evaluate (conjoin xs ys) panel req limit).run.run s).1 = .ok true ↔
          ((evaluate xs panel req limit).run.run s).1 = .ok true ∧
            ((evaluate ys panel req limit).run.run s).1 = .ok true)
  := by
  have hcheck := checkStructure_conjoin hxs hys hroom
  have hin := (checkStructure_ok_iff.mp hxs).1
  have hin' := (checkStructure_ok_iff.mp hys).1
  refine ⟨hcheck, ⟨_, _, _, (of_checkStructure hxs).1, (of_checkStructure hys).1,
    (of_checkStructure hcheck).1, ?_⟩, ?_⟩
  · rw [map_sources, topLevel_conjoin hin hin' hroom, map_sources, ← map_sources ys, List.map_map]
    rfl
  · intro σ panel answers hanswers req limit s
    have hvalue : ((evaluate (conjoin xs ys) panel req limit).run.run s).1 =
        (match ((evaluate xs panel req limit).run.run s).1 with
        | .ok true =>
            ((evaluate ys panel req limit).run.run s).1.mapError (RuleError.shift xs.length)
        | x => x) := by
      rw [evaluate_conjoin hxs hys hroom, seq_run]
      rcases (evaluate xs panel req limit).run.run s with ⟨e | x, t⟩
      · rfl
      · cases x with
        | false => rfl
        | true =>
            -- the second sequence comes to the same in the state that the first one leaves
            have hsame := ((hanswers.alike hanswers).evaluate ys req limit t s trivial).1
            rw [← hsame]
            rfl
    refine ⟨hvalue, ?_⟩
    rw [hvalue]
    split
    next heq =>
      rw [heq]
      cases ((evaluate ys panel req limit).run.run s).1 <;> simp [Except.mapError]
    next hne => exact ⟨fun heq => absurd heq hne, fun heq => heq.1⟩

/-! ### An example -/

/-- The first argument is above five, or the height above ten. -/
def argumentOrHeight : List Rule :=
  [or 1 2, argument 0 (.compare .gt) 5, height (.compare .gt) 10]

/-- An oracle says yes, and what never passes does not pass. -/
def oracleAndNotNever : List Rule :=
  [and 1 2, oracle ⟨3⟩, not 3, never]

/-- The operands of the second sequence are moved up by the length of the first one. -/
example : conjoin argumentOrHeight oracleAndNotNever =
    [or 1 2, argument 0 (.compare .gt) 5, height (.compare .gt) 10,
      and 4 5, oracle ⟨3⟩, not 6, never] := by
  decide

/-- Without the oracle the second sequence is in error about it, at its new place. -/
theorem conjoin_conjunction_withoutOracle :
  let req : Request := ⟨⟨⟨7⟩, ⟨.createPermissions, ⟨9⟩⟩, [8]⟩, ⟨0, 0⟩⟩
  checkStructure argumentOrHeight = .ok () ∧ checkStructure oracleAndNotNever = .ok () ∧
    argumentOrHeight.length + oracleAndNotNever.length ≤ UInt32.size ∧
    checkStructure (conjoin argumentOrHeight oracleAndNotNever) = .ok () ∧
    ((evaluate (conjoin argumentOrHeight oracleAndNotNever) (Panel.empty : Panel Unit) req
      2).run.run ()).1 = .error (.unknownOracle 4 3)
  := by
  intro req
  have hfirst : checkStructure argumentOrHeight = .ok () := by decide +kernel
  have hsecond : checkStructure oracleAndNotNever = .ok () := by decide +kernel
  have hroom : argumentOrHeight.length + oracleAndNotNever.length ≤ UInt32.size := by decide
  have hpasses : ((evaluate argumentOrHeight (Panel.empty : Panel Unit) req 2).run.run ()).1 =
      .ok true := by decide +kernel
  have hfails : ((evaluate oracleAndNotNever (Panel.empty : Panel Unit) req 2).run.run ()).1 =
      .error (.unknownOracle 1 3) := by decide +kernel
  have hanswers : (Panel.empty : Panel Unit).AnswersAs fun _ => none := fun _ => Option.Rel.none
  obtain ⟨hcheck, _, hevaluate⟩ := conjoin_conjunction hfirst hsecond hroom
  obtain ⟨hvalue, _⟩ := hevaluate Unit Panel.empty _ hanswers req 2 ()
  rw [hpasses, hfails] at hvalue
  exact ⟨hfirst, hsecond, hroom, hcheck, hvalue⟩

end Rule

end DelegatedAccess
