import DelegatedAccess.Text.Reader
import Mathlib.Data.List.TakeWhile

/-!
# What readers make of texts

What a reader makes of a text, whatever the error is when it makes nothing of it, follows from what
its parts make of it.
-/

namespace DelegatedAccess.Reader

variable {ε α β : Type}

/-- Characters that pass a test are taken, up to one that fails it. -/
theorem span_append {p : Char → Bool} {cs rest : List Char} (hcs : ∀ c ∈ cs, p c = true)
    (hrest : ∀ c, rest.head? = some c → p c = false) :
  (cs ++ rest).takeWhile p = cs ∧ (cs ++ rest).dropWhile p = rest
  := by
  have hstop : rest.takeWhile p = [] ∧ rest.dropWhile p = rest := by
    cases rest with
    | nil => exact ⟨rfl, rfl⟩
    | cons c cs =>
        have hc : ¬ p c = true := by simp [hrest c rfl]
        exact ⟨List.takeWhile_cons_of_neg hc, List.dropWhile_cons_of_neg hc⟩
  rw [List.takeWhile_append_of_pos hcs, List.dropWhile_append_of_pos hcs, hstop.1, hstop.2,
    List.append_nil]
  exact ⟨rfl, rfl⟩

/-- What is taken of a text is the longest part in front of it that passes a test. -/
theorem span_eq_iff {p : Char → Bool} {cs taken rest : List Char} :
  cs.takeWhile p = taken ∧ cs.dropWhile p = rest ↔
    cs = taken ++ rest ∧ (∀ c ∈ taken, p c = true) ∧ ∀ c, rest.head? = some c → p c = false
  := by
  constructor
  · rintro ⟨rfl, rfl⟩
    refine ⟨List.takeWhile_append_dropWhile.symm, fun c hc => List.mem_takeWhile_imp hc, ?_⟩
    intro c hc
    have hstop := List.head?_dropWhile_not p cs
    rw [hc] at hstop
    simpa using hstop
  · rintro ⟨rfl, htaken, hrest⟩
    exact span_append htaken hrest

/-- What a reader makes of a text, and what it leaves of the text, if it does not fail. -/
def result? (m : Reader ε α) (cs : List Char) : Option (α × List Char) :=
  (m.run cs).toOption

@[simp] theorem result?_pure (a : α) (cs : List Char) :
  (pure a : Reader ε α).result? cs = some (a, cs)
  := rfl

/-- A reader after another goes on with what the other has left. -/
@[simp] theorem result?_bind (m : Reader ε α) (f : α → Reader ε β) (cs : List Char) :
  (m >>= f).result? cs = (m.result? cs).bind fun x => (f x.1).result? x.2
  := by
  rw [result?, StateT.run_bind, result?]
  cases m.run cs <;> rfl

/-- What is made of a result is made of what a reader gives. -/
@[simp] theorem result?_map (f : α → β) (m : Reader ε α) (cs : List Char) :
  (f <$> m).result? cs = (m.result? cs).map fun x => (f x.1, x.2)
  := by
  change (m >>= fun a => pure (f a)).result? cs = _
  rw [result?_bind]
  cases m.result? cs <;> rfl

@[simp] theorem result?_get (cs : List Char) :
  (get : Reader ε (List Char)).result? cs = some (cs, cs)
  := rfl

@[simp] theorem result?_peek? (cs : List Char) :
  (peek? : Reader ε (Option Char)).result? cs = some (cs.head?, cs)
  := rfl

@[simp] theorem result?_advance (cs : List Char) :
  (advance : Reader ε Unit).result? cs = some ((), cs.tail)
  := rfl

@[simp] theorem result?_takeWhile (p : Char → Bool) (cs : List Char) :
  (takeWhile p : Reader ε (List Char)).result? cs = some (cs.takeWhile p, cs.dropWhile p)
  := rfl

/-- Characters are passed over if they come next. -/
@[simp] theorem result?_skip? (expected cs : List Char) :
  (skip? expected : Reader ε Bool).result? cs =
    if expected.isPrefixOf cs then some (true, cs.drop expected.length) else some (false, cs)
  := by
  rw [skip?, result?_bind, result?_get, Option.bind_some]
  split <;> rfl

/-- Characters that must come next are passed over if they do. -/
@[simp] theorem result?_expect (e : ε) (expected cs : List Char) :
  (expect e expected).result? cs =
    if expected.isPrefixOf cs then some ((), cs.drop expected.length) else none
  := by
  rw [expect, result?_bind, result?_skip?]
  split <;> rfl

/-- A number of characters is taken if there are that many. -/
@[simp] theorem result?_takeExactly? (n : Nat) (cs : List Char) :
  (takeExactly? n : Reader ε (Option (List Char))).result? cs =
    if cs.length < n then some (none, cs) else some (some (cs.take n), cs.drop n)
  := by
  rw [takeExactly?, result?_bind, result?_get, Option.bind_some]
  split <;> rfl

/-! ### Repetition -/

/-- A step that gives something is followed by others. -/
theorem result?_repeatUpTo_some {step : Reader ε (Option α)} {a : α} {cs ds : List Char}
    (h : step.result? cs = some (some a, ds)) (stuck : ε) (n : Nat) :
  (repeatUpTo stuck step (n + 1)).result? cs =
    ((repeatUpTo stuck step n).result? ds).map fun x => (a :: x.1, x.2)
  := by
  rw [repeatUpTo, result?_bind, h, Option.bind_some]
  dsimp only
  rw [result?_bind]
  cases (repeatUpTo stuck step n).result? ds <;> rfl

/-- A step that gives nothing is the last. -/
theorem result?_repeatUpTo_none {step : Reader ε (Option α)} {cs ds : List Char}
    (h : step.result? cs = some (none, ds)) (stuck : ε) (n : Nat) :
  (repeatUpTo stuck step (n + 1)).result? cs = some ([], ds)
  := by
  rw [repeatUpTo, result?_bind, h, Option.bind_some]
  rfl

/-- A step that fails is not followed by others. -/
theorem result?_repeatUpTo_of_none {step : Reader ε (Option α)} {cs : List Char}
    (h : step.result? cs = none) (stuck : ε) (n : Nat) :
  (repeatUpTo stuck step n).result? cs = none
  := by
  cases n with
  | zero => rfl
  | succ n =>
      rw [repeatUpTo, result?_bind, h]
      rfl

/-- A state and a text lead to another state and a text, by steps each of which takes a
character. -/
inductive Leads {σ : Type} (step : σ → Reader ε (Option σ)) :
    σ → List Char → σ → List Char → Prop
  | refl (s : σ) (cs : List Char) : Leads step s cs s cs
  | next {s s' t : σ} {cs cs' ds : List Char} (hstep : (step s).result? cs = some (some s', cs'))
      (hless : cs'.length < cs.length) (hrest : Leads step s' cs' t ds) : Leads step s cs t ds

namespace Leads

variable {σ : Type} {step : σ → Reader ε (Option σ)} {s t u : σ} {cs ds es : List Char}

/-- One step may be followed by others. -/
theorem trans (h : Leads step s cs t ds) (h' : Leads step t ds u es) :
  Leads step s cs u es
  := by
  induction h with
  | refl => exact h'
  | next hstep hless _ ih => exact next hstep hless (ih h')

/-- Iteration goes where the steps lead, as long as its bound is beyond the length of the text. -/
theorem iterateUpTo (h : Leads step s cs t ds) (stuck : ε) {n : Nat} (hn : cs.length < n) :
  ∃ m, ds.length < m ∧
    (iterateUpTo stuck step n s).result? cs = (Reader.iterateUpTo stuck step m t).result? ds
  := by
  induction h generalizing n with
  | refl => exact ⟨n, hn, rfl⟩
  | @next s s' t cs cs' ds hstep hless _ ih =>
      cases n with
      | zero => omega
      | succ n =>
          obtain ⟨m, hm, heq⟩ := ih (show cs'.length < n by omega)
          refine ⟨m, hm, ?_⟩
          rw [Reader.iterateUpTo, result?_bind, hstep]
          exact heq

/-- Iteration ends where the steps lead to a state without a next one. -/
theorem iterateUntilNone (h : Leads step s cs t ds) (stuck : ε)
    (hend : (step t).result? ds = some (none, es)) :
  (iterateUntilNone stuck step s).result? cs = some (t, es)
  := by
  obtain ⟨m, hm, heq⟩ := h.iterateUpTo stuck (Nat.lt_succ_self cs.length)
  change (Reader.iterateUpTo stuck step (cs.length + 1) s).result? cs = _
  rw [heq]
  cases m with
  | zero => omega
  | succ m =>
      rw [Reader.iterateUpTo, result?_bind, hend]
      rfl

end Leads

end DelegatedAccess.Reader
