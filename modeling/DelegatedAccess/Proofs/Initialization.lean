import DelegatedAccess.Proofs.Deed
import DelegatedAccess.Proofs.Ledger.Representation

/-!
# Instances are initialized once

A store is initialized at most once, and never when it is a template; an initialized store never
becomes a template. The root that it is initialized with is a real actor, and is found in the store
from then on. Before it is initialized a store holds no grants, no managers and no rule sequences,
and there is nothing that creations and managers can do.

The main result of this module is that all this holds along every course from an empty store, where
"at most once" and "never afterwards" are said about the log of everything that was done, by oracles
too.
-/

namespace DelegatedAccess

variable {η ω : Type}

/-! ### Deeds that initialize or make a template -/

/-- The root, if an operation is an initialization. -/
def Operation.Kind.root? : Operation.Kind → Option Entity
  | .bootstrap root => some root
  | _ => none

/-- Whether an operation is to make a template. -/
def Operation.Kind.freezes : Operation.Kind → Bool
  | .freeze => true
  | _ => false

namespace Deed

/-- The root, if a deed is an initialization. -/
def root? : Deed η → Option Entity
  | .done (.operation op) _ => op.kind.root?
  | _ => none

/-- Whether a deed makes a template, or opens a store as one. -/
def freezes : Deed η → Bool
  | .done (.operation op) _ => op.kind.freezes
  | .done (.reopen _ template) _ => template
  | _ => false

/-- One deed may stand before another: no initialization comes after one that makes a template, and
after an initialization comes no other, and none that makes a template. -/
def MayPrecede (d e : Deed η) : Prop :=
  (d.freezes = true → e.root? = none) ∧ (d.root? ≠ none → e.root? = none ∧ e.freezes = false)

end Deed

/-! ### Roots of stores -/

namespace Store

/-- A store is rooted when it is initialized just if a root can be read, which is a real actor. It
has no rule sequences before. -/
structure Rooted (s : Store) : Prop where
  initialized : s.isInitialized = s.root?.isSome
  real : ∀ root, s.root? = some root → ¬ root.IsReserved
  unruled : s.isInitialized = false → s.rules = .empty

/-- The store that holds nothing is rooted. -/
theorem Rooted.empty :
  Store.empty.Rooted
  where
  initialized := rfl
  real root h := by contradiction
  unruled _ := rfl

/-- What is known of the instance decides whether an initialized store is rooted. -/
theorem Rooted.of_about {s t : Store} (hs : s.Rooted) (hinitialized : s.isInitialized = true)
    (habout : t.about = s.about) :
  t.Rooted
  := by
  have hroot : t.root? = s.root? := by rw [root?, habout, root?]
  have hsame : t.isInitialized = s.isInitialized := by rw [isInitialized, habout, isInitialized]
  constructor
  · rw [hsame, hroot, hs.initialized]
  · rw [hroot]
    apply hs.real
  · intro h
    rw [hsame, hinitialized] at h
    contradiction

/-- A step leaves a store rooted. -/
theorem Step.rooted {s t : Store} (h : s.Step t) (hs : s.Rooted) :
  t.Rooted
  := by
  cases h with
  | bootstrap resource root now hroot hfrozen hinitialized =>
      constructor
      · rw [isInitialized_bootstrap, root?_bootstrap]
        rfl
      · intro root' h
        rw [root?_bootstrap] at h
        rwa [← Option.some.inj h]
      · intro h
        rw [isInitialized_bootstrap] at h
        contradiction
  | freeze hfrozen hinitialized =>
      constructor
      · rw [isInitialized_freeze, root?_freeze, hs.initialized]
      · rw [root?_freeze]
        apply hs.real
      · intro _
        apply hs.unruled hinitialized
  | refreeze hfrozen => exact hs
  | create c hinput hinitialized hcaller hfree =>
      apply hs.of_about hinitialized (about_creation c s)
  | manage caller p task hinput hinitialized hcaller hmanager =>
      apply hs.of_about hinitialized (about_task task p s)

end Store

/-! ### Logs of stores -/

/-- The deeds in a log account for the phase that a store is in. -/
structure Phased (s : Store) (deeds : List (Deed η)) : Prop where
  sound : s.Sound
  rooted : s.Rooted
  /-- The root of the store is that of the only initialization. -/
  roots : deeds.filterMap Deed.root? = s.root?.toList
  frozen : s.isFrozen = deeds.any Deed.freezes
  ordered : deeds.Pairwise Deed.MayPrecede

namespace Phased

variable {s t : Store} {deeds : List (Deed η)}

/-- Nothing has been done to the store that holds nothing. -/
theorem empty :
  Phased Store.empty ([] : List (Deed η))
  where
  sound := Store.Sound.empty
  rooted := Store.Rooted.empty
  roots := rfl
  frozen := rfl
  ordered := List.Pairwise.nil

/-- One more deed accounts for what the store has become, if the phase that it was in allows the
deed. -/
theorem concat (h : Phased s deeds) {d : Deed η} (hsound : t.Sound) (hrooted : t.Rooted)
    (hroot : t.root?.toList = s.root?.toList ++ d.root?.toList)
    (hfrozen : t.isFrozen = (s.isFrozen || d.freezes))
    (htemplate : s.isFrozen = true → d.root? = none)
    (hinitialized : s.root? ≠ none → d.root? = none ∧ d.freezes = false) :
  Phased t (deeds ++ [d])
  where
  sound := hsound
  rooted := hrooted
  roots := by
    rw [List.filterMap_append, h.roots, hroot]
    cases hd : d.root? with
    | none => rw [List.filterMap_cons_none hd, List.filterMap_nil, Option.toList_none]
    | some root => rw [List.filterMap_cons_some hd, List.filterMap_nil, Option.toList_some]
  frozen := by
    rw [hfrozen, h.frozen]
    simp
  ordered := by
    apply List.pairwise_append.mpr ⟨h.ordered, List.pairwise_singleton _ _, ?_⟩
    intro e he d' hd'
    obtain rfl := List.mem_singleton.mp hd'
    constructor
    · intro hfreezes
      apply htemplate
      rw [h.frozen]
      apply List.any_eq_true.mpr ⟨e, he, hfreezes⟩
    · intro hroot
      apply hinitialized
      intro hnone
      obtain ⟨root, hroot⟩ := Option.ne_none_iff_exists'.mp hroot
      have hmem : root ∈ deeds.filterMap Deed.root? := List.mem_filterMap.mpr ⟨e, he, hroot⟩
      rw [h.roots, hnone] at hmem
      contradiction

/-- A deed of another kind leaves the phase, if it leaves what is known of the instance. -/
theorem of_about (h : Phased s deeds) (hsound : t.Sound) (hrooted : t.Rooted)
    (habout : t.about = s.about) {d : Deed η} (hroot : d.root? = none)
    (hfreezes : d.freezes = false) :
  Phased t (deeds ++ [d])
  := by
  apply h.concat hsound hrooted
  · rw [Store.root?, habout, hroot, Option.toList_none, List.append_nil, Store.root?]
  · rw [Store.isFrozen, habout, hfreezes, Bool.or_false, Store.isFrozen]
  · exact fun _ => hroot
  · exact fun _ => ⟨hroot, hfreezes⟩

/-- A deed of another kind leaves the phase. -/
theorem silent (h : Phased s deeds) {d : Deed η} (hroot : d.root? = none)
    (hfreezes : d.freezes = false) :
  Phased s (deeds ++ [d])
  := h.of_about h.sound h.rooted rfl hroot hfreezes

/-- A store that is not initialized has no root. -/
theorem root?_eq_none (h : Phased s deeds) (hinitialized : s.isInitialized = false) :
  s.root? = none
  := by
  rw [← Option.isSome_eq_false_iff.trans Option.isNone_iff_eq_none, ← h.rooted.initialized]
  exact hinitialized

/-- A deed accounts for what the draft of its kind makes of the store. -/
theorem drafted (h : Phased s deeds) {resource : Resource} {kind : Operation.Kind} {draft : Draft}
    (hdrafted : Drafted resource s kind draft) (hinput : kind.IsWellFormed) {d : Deed η}
    (hroot : d.root? = kind.root?) (hfreezes : d.freezes = kind.freezes) :
  Phased draft.store (deeds ++ [d])
  := by
  have hstep := hdrafted.step hinput
  have hsound := hstep.sound h.sound
  have hrooted := hstep.rooted h.rooted
  cases hdrafted with
  | bootstrap root now hfrozen hinitialized =>
      have hnone := h.root?_eq_none hinitialized
      apply h.concat hsound hrooted
      · change (s.bootstrap resource root now).root?.toList = _
        rw [Store.root?_bootstrap, hnone, hroot]
        rfl
      · change (s.bootstrap resource root now).isFrozen = _
        rw [Store.isFrozen_bootstrap, hfreezes]
        simp [Operation.Kind.freezes]
      · intro hnot
        rw [hfrozen] at hnot
        contradiction
      · exact fun hsome => absurd hnone hsome
  | freeze hfrozen hinitialized =>
      apply h.concat hsound hrooted
      · rw [Draft.store_markFrozen, Draft.store_start, Store.root?_freeze, hroot]
        simp [Operation.Kind.root?]
      · rw [hfreezes, Draft.store_markFrozen, Store.isFrozen, Store.contains_putAbout]
        simp [Operation.Kind.freezes]
      · exact fun _ => hroot
      · exact fun hsome => absurd (h.root?_eq_none hinitialized) hsome
  | refreeze hfrozen =>
      have hinitialized : s.isInitialized = false := by
        by_contra hnot
        rw [h.sound.apart (Bool.not_eq_false _ ▸ hnot)] at hfrozen
        contradiction
      apply h.concat hsound hrooted
      · rw [hroot]
        simp [Operation.Kind.root?]
      · rw [Draft.store_start, hfrozen, Bool.true_or]
      · exact fun _ => hroot
      · exact fun hsome => absurd (h.root?_eq_none hinitialized) hsome
  | create c hinitialized hcaller hfree =>
      rw [Creation.store_draft] at hsound hrooted ⊢
      apply h.of_about hsound hrooted (Store.about_creation c s) hroot hfreezes
  | manage caller p task hinitialized hcaller hmanager =>
      rw [Task.store_draft] at hsound hrooted ⊢
      apply h.of_about hsound hrooted (Store.about_task task p s) hroot hfreezes

end Phased

namespace World

/-- The log of a world accounts for the phase of its store. -/
abbrev IsPhased (w : World η (ω × List (Deed η))) : Prop :=
  Phased w.current.store w.notes

/-- An act whose oracles keep the log right keeps it right. -/
theorem IsPhased.acted {w v : World η (ω × List (Deed η))} {a : Act η}
    {result : Except AccessError Reply} (hw : w.IsPhased)
    (h : Acted (fun u u' => u.IsPhased → u'.IsPhased) w a result v) :
  (v.log (a.deeds result)).IsPhased
  := by
  cases h with
  | failed e hv =>
      rw [Act.deeds, log_nil]
      exact hv hw
  | performed hscreen hv hdrafted =>
      exact (hv hw).drafted hdrafted (Operation.isWellFormed_kind hscreen) rfl rfl
  | answered a hv => exact (hv hw).silent rfl rfl
  | registered e handle => exact hw.silent rfl rfl
  | sinkAdded name => exact hw.silent rfl rfl
  | opened config => exact hw.silent rfl rfl
  | frozen hdrafted => exact hw.drafted hdrafted trivial rfl rfl

/-- The log of a course stays right. -/
theorem Logged.isPhased {w v : World η (ω × List (Deed η))} (h : Logged w v) (hw : w.IsPhased) :
  v.IsPhased
  := by
  apply h.keeps _ _ _ hw
  · intro w v a result hw hacted
    exact hw.acted hacted
  · intro w place hw
    exact Phased.silent hw rfl rfl
  · exact fun w state hw => hw

/-! ### Stores that are not initialized -/

/-- Before initialization creations and managers are told so, once their input is screened, and no
oracle is asked. -/
theorem perform_uninitialized {w : World η ω} (h : w.current.store.isInitialized = false)
    (behave : Behaviour η ω) (now : UInt64) {op : Operation} (hroot : op.kind.root? = none)
    (hfreezes : op.kind.freezes = false) :
  (perform behave now op).run.run w =
    match op.kind.screen w.current.config with
    | .error e => (.error e, w)
    | .ok () => (.error (.initialization .notInitialized), w)
  := by
  rw [perform_run]
  cases op.kind.screen w.current.config with
  | error e => rfl
  | ok _ =>
      cases hkind : op.kind with
      | bootstrap root =>
          rw [hkind] at hroot
          contradiction
      | freeze =>
          rw [hkind] at hfreezes
          contradiction
      | create c =>
          dsimp only [pursue]
          rw [establish_run rfl, if_pos h]
      | manage caller p task =>
          dsimp only [pursue]
          rw [commit_run, Task.transaction_eq, Store.requireManager_eq, if_pos h]

/-! ### Initialization -/

/-- What is known of a world and of everything that was done since its store was empty. -/
structure InitializedOnce (w : World η ω) (deeds : List (Deed η)) : Prop where
  /-- There is at most one initialization. -/
  once : (deeds.filterMap Deed.root?).length ≤ 1
  /-- The store is initialized just if there was one. Its root is a real actor and is the root
  now. -/
  initialized : w.current.store.isInitialized = true ↔ ∃ d ∈ deeds, d.root? ≠ none
  root : ∀ d ∈ deeds, ∀ root, d.root? = some root →
    ¬ root.IsReserved ∧ w.current.store.root? = some root
  /-- The store is a template just if something made it one. -/
  frozen : w.current.store.isFrozen = true ↔ ∃ d ∈ deeds, d.freezes = true
  apart : ¬ (w.current.store.isInitialized = true ∧ w.current.store.isFrozen = true)
  /-- No initialization came after something that made a template, and nothing that makes one came
  after an initialization. -/
  ordered : deeds.Pairwise Deed.MayPrecede
  /-- Before initialization nothing is kept. -/
  bare : w.current.store.isInitialized = false →
    w.current.store.grants = .empty ∧ w.current.store.managers = .empty ∧
      w.current.store.rules = .empty
  /-- Before initialization all other operations fail and leave everything as it is, and they say
  why, unless their input is not taken. -/
  idle : w.current.store.isInitialized = false → ∀ (behave : Behaviour η ω) (now : UInt64)
    (op : Operation), (∀ root, op ≠ .bootstrap root) → op ≠ .freeze →
      ∃ e, (perform behave now op).run.run w = (.error e, w) ∧
        (op.kind.screen w.current.config = .ok () → e = .initialization .notInitialized)

/-- Only initializations have a root. -/
theorem root?_kind_eq_none {op : Operation} (h : ∀ root, op ≠ .bootstrap root) :
  op.kind.root? = none
  := by
  cases op with
  | bootstrap root => exact absurd rfl (h root)
  | _ => rfl

/-- Only one operation makes a template. -/
theorem freezes_kind_eq_false {op : Operation} (h : op ≠ .freeze) :
  op.kind.freezes = false
  := by
  cases op with
  | freeze => exact absurd rfl h
  | _ => rfl

/-- The log of a world says all this, when it accounts for the phase of the store. -/
theorem initializedOnce_of_phased {w : World η ω} {deeds : List (Deed η)}
    (h : Phased w.current.store deeds) :
  w.InitializedOnce deeds
  where
  once := by
    rw [h.roots]
    cases w.current.store.root? <;> simp
  initialized := by
    rw [h.rooted.initialized, Option.isSome_iff_ne_none, ne_eq, ← Option.toList_eq_nil_iff,
      ← h.roots, List.filterMap_eq_nil_iff, not_forall₂]
    simp only [exists_prop, ne_eq]
  root d hd root hroot := by
    have hmem : root ∈ deeds.filterMap Deed.root? := List.mem_filterMap.mpr ⟨d, hd, hroot⟩
    rw [h.roots, Option.mem_toList] at hmem
    exact ⟨h.rooted.real root hmem, hmem⟩
  frozen := by
    rw [h.frozen, List.any_eq_true]
  apart := by
    rintro ⟨hinitialized, hfrozen⟩
    rw [h.sound.apart hinitialized] at hfrozen
    contradiction
  ordered := h.ordered
  bare hinitialized :=
    ⟨h.sound.ungranted hinitialized, h.sound.unmanaged hinitialized,
      h.rooted.unruled hinitialized⟩
  idle hinitialized behave now op hroot hfreezes := by
    have hrun := perform_uninitialized hinitialized behave now (root?_kind_eq_none hroot)
      (freezes_kind_eq_false hfreezes)
    cases hscreen : op.kind.screen w.current.config with
    | error e =>
        rw [hscreen] at hrun
        exact ⟨e, hrun, fun h => nomatch h⟩
    | ok _ =>
        rw [hscreen] at hrun
        exact ⟨_, hrun, fun _ => rfl⟩

/-- Every course from an empty store can be logged, and at the end of it, whatever was done on the
way by acts and by oracles, there was at most one initialization, with a root that is still the
root, and never was an initialized store made a template, or a template initialized. As long as
the store is not initialized, it is empty, and neither creations nor managers can do anything. -/
theorem initialized_once {w₀ : World η ω} (hfresh : w₀.IsFresh) :
  (∀ w, Course w₀ w → ∃ deeds, Logged (w₀.keeping []) (w.keeping deeds)) ∧
    ∀ (w : World η ω) (deeds : List (Deed η)), Logged (w₀.keeping []) (w.keeping deeds) →
      w.InitializedOnce deeds
  := by
  constructor
  · intro w hcourse
    apply hcourse.logged
  · intro w deeds hlogged
    have hstart : (w₀.keeping ([] : List (Deed η))).IsPhased := by
      obtain ⟨config, hconfig⟩ := hfresh
      have hempty : w₀.current.store = .empty := Instance.store_start hconfig
      change Phased w₀.current.store []
      rw [hempty]
      apply Phased.empty
    exact initializedOnce_of_phased (hlogged.isPhased hstart)

/-! ### An example -/

/-- A world with a log, in which things were tried before the store was initialized, and once it
was, it was to be initialized again, with another root, and to be made a template. -/
def insistentWorld : World Unit (Unit × List (Deed Unit)) :=
  actAllLogged agreeable 0
    [.operation (.createBurned ⟨5⟩ examplePair), .operation (.bootstrap .burn),
      .operation (.bootstrap ⟨5⟩), .reopen {} false, .operation (.bootstrap ⟨6⟩),
      .operation .freeze, .reopen {} true]
    ((blank : World Unit Unit).keeping [])

/-- Only the first initialization with a real actor was done, and the store was opened again. -/
theorem initialized_once_insistent :
  (blank : World Unit Unit).IsFresh ∧
    insistentWorld.notes.map Deed.root? = [some ⟨5⟩, none] ∧
    insistentWorld.current.store.root? = some ⟨5⟩ ∧
    insistentWorld.forget.InitializedOnce insistentWorld.notes
  := by
  have hfresh := isFresh_blank (η := Unit)
  have hlogged : Logged ((blank : World Unit Unit).keeping [])
      insistentWorld := Logged.all logged_agreeable 0 _ (Logged.refl _)
  have honce := (initialized_once hfresh).2 insistentWorld.forget insistentWorld.notes hlogged
  have hroots : insistentWorld.notes.map Deed.root? = [some ⟨5⟩, none] := by decide +kernel
  have hroot : insistentWorld.current.store.root? = some ⟨5⟩ := by decide +kernel
  exact ⟨hfresh, hroots, hroot, honce⟩

end World

end DelegatedAccess
