import DelegatedAccess.Proofs.Http.Reply
import DelegatedAccess.Proofs.Http.Routing
import DelegatedAccess.Proofs.Rule.Encoding
import DelegatedAccess.Proofs.Run

/-!
# The service does what an instance does

A request under one of eleven paths comes to what the instance itself comes to, when it performs the
operation that the body demands or answers the question that it asks. The response says so by its
status, its data and its error, and a request without a demand comes to nothing. The rules of a
grant are read one by one, and are still the whole sequence that is stored.

The main result of this module says so for every request and every instance that consults no
oracles.
-/

namespace DelegatedAccess

variable {η ω : Type}

/-! ### The rules of a grant -/

/-- What the store holds of the rules that gate a grant: a whole sequence, or none because there is
no grant or no condition, or else the sequence is missing, or what is stored is the form of no
sequence. -/
inductive Store.Gates (s : Store) (p : Pair) (e : Entity) :
    Except AccessError (List Rule) → Prop
  | ungranted (hgrant : s.grant? p e = none) : Gates s p e (.ok [])
  | unconditional (hgrant : s.grant? p e = some .unconditional) : Gates s p e (.ok [])
  | whole {r : RuleRef} {rules : List Rule} (hgrant : s.grant? p e = some (.conditional r))
      (hrules : s.rules.get? r.bytes = some (Rule.encodeAll rules)) : Gates s p e (.ok rules)
  | missing {r : RuleRef} (hgrant : s.grant? p e = some (.conditional r))
      (hrules : s.rules.get? r.bytes = none) :
      Gates s p e (.error (.configuration (.missingRules r)))
  | corrupted {r : RuleRef} {bs : Bytes} (hgrant : s.grant? p e = some (.conditional r))
      (hrules : s.rules.get? r.bytes = some bs) (hbytes : ∀ rules, bs ≠ Rule.encodeAll rules) :
      Gates s p e (.error (.configuration (.corrupted r)))

/-- The rules that are read are those that the store holds. -/
theorem Store.gates_rulesOf (s : Store) (p : Pair) (e : Entity) :
  s.Gates p e (s.rulesOf p e)
  := by
  rw [rulesOf]
  cases hgrant : s.grant? p e with
  | none => exact .ungranted hgrant
  | some g =>
      cases g with
      | unconditional => exact .unconditional hgrant
      | conditional r =>
          dsimp only
          rw [gate, loadRules]
          cases hrules : s.rules.get? r.bytes with
          | none => exact .missing hgrant hrules
          | some bs =>
              dsimp only
              cases hdecode : Rule.decodeAll? bs with
              | none =>
                  refine .corrupted hgrant hrules fun rules hbs => ?_
                  rw [Rule.decodeAll?_eq_some_iff.mpr hbs] at hdecode
                  contradiction
              | some rules =>
                  rw [Rule.decodeAll?_eq_some_iff.mp hdecode] at hrules
                  exact .whole hgrant hrules

namespace World

/-- What succeeds is gone on with. -/
theorem bind_run {α β : Type} {m : Attempt η ω α} {w v : World η ω} {a : α}
    (h : m.run.run w = (.ok a, v)) (f : α → Attempt η ω β) :
  (m >>= f).run.run w = (f a).run.run v
  := by
  change (ExceptT.bindCont f (m.run.run w).1).run (m.run.run w).2 = _
  rw [h]
  rfl

/-- What fails is not gone on with. -/
theorem bind_run_error {α β : Type} {m : Attempt η ω α} {w v : World η ω} {e : AccessError}
    (h : m.run.run w = (.error e, v)) (f : α → Attempt η ω β) :
  (m >>= f).run.run w = (.error e, v)
  := by
  change (ExceptT.bindCont f (m.run.run w).1).run (m.run.run w).2 = _
  rw [h]
  rfl

/-- Reading items one by one by their indices leaves the world. -/
theorem mapM_stored_run {α : Type} {read : Store → Except AccessError (List α)} {items : List α}
    {w : World η ω} (h : read w.current.store = .ok items) (indices : List Nat) :
  (indices.mapM fun index => do return (← stored read)[index]? :
    Attempt η ω (List (Option α))).run.run w = (.ok (indices.map (items[·]?)), w)
  := by
  induction indices with
  | nil => rfl
  | cons index indices ih =>
      have hfirst : (do return (← stored read)[index]? : Attempt η ω (Option α)).run.run w =
          (.ok items[index]?, w) := by
        rw [wrap_run, stored_run, h]
        rfl
      rw [List.mapM_cons, bind_run hfirst, bind_run ih]
      rfl

/-- Rules that are counted first and then read one by one are the whole sequence. -/
theorem rulesInTurn_run (e : Entity) (p : Pair) (w : World η ω) :
  (rulesInTurn e p).run.run w = (w.current.store.rulesOf p e, w)
  := by
  have hcount := stored_run (η := η) (ω := ω) (·.rulesOf p e) w
  cases hrules : w.current.store.rulesOf p e with
  | error err =>
      rw [hrules] at hcount
      rw [rulesInTurn, bind_run_error hcount]
  | ok rules =>
      rw [hrules] at hcount
      have hwhole : ((List.range rules.length).map (rules[·]?)).filterMap id = rules := by
        have hsome : (List.range rules.length).map (rules[·]?) = rules.map some := by
          apply List.ext_getElem
          · simp
          · intro index _ _
            simp
        rw [hsome, List.filterMap_map]
        exact List.filterMap_some
      rw [rulesInTurn, bind_run hcount, bind_run (mapM_stored_run hrules _), hwhole]
      rfl

end World

/-! ### Demands -/

namespace Http

/-- A demand is met, from a world to another, by a response that reports what the instance itself
comes to: by performing the operation that is demanded, or by answering the question. No question
changes the world. The request of a check is made at the present time and height zero, unless others
are demanded, and what is misconfigured is not allowed. The rules of a grant are those that the
store holds, which are those that the instance counts and tells one by one, and which can be read
back from the text that is written for them. -/
def Demand.MetBy (behave : World.Behaviour η ω) (now : UInt64) (cause : String) (w v : World η ω)
    (response : Response) : Demand → Prop
  | .status =>
      v = w ∧ ∃ status, (World.answer behave now .status).run.run w = (.ok (.status status), w) ∧
        response.Says 200 true (.object [
          ("initialized", .bool status.initialized),
          ("frozen", .bool status.frozen),
          ("root", status.root.elim .null fun e => .number e.id.toNat),
          ("acl_resource", .number status.resource.id.toNat)]) .null
  | .operation op =>
      ∃ result, (World.perform behave now op).run.run w = (result, v) ∧
        response.Reports cause (fun receipt data => data.tree.receipt? = some receipt) result
  | .manager p =>
      v = w ∧ ∃ result : Except AccessError (Option Entity),
        (World.answer behave now (.manager p)).run.run w = (result.map .manager, w) ∧
        response.Reports cause
          (fun manager data => data = manager.elim .null fun e => .number e.id.toNat) result
  | .rules e p =>
      v = w ∧ ∃ result : Except AccessError (List Rule), w.current.store.Gates p e result ∧
        (World.answer behave now (.ruleCount e p)).run.run w =
          (result.map fun rules => .count rules.length, w) ∧
        (∀ index, (World.answer behave now (.rule e p index)).run.run w =
          (result.map fun rules => .rule rules[index]?, w)) ∧
        response.Reports cause (fun rules data =>
          data = .array (rules.map fun r => .object [
            ("arg", .number r.selector.toNat),
            ("op", .number r.code.toNat),
            ("value", .number r.value.toNat)]) ∧
          data.tree.array? Json.Tree.rule? = some rules ∧
          (Json.array rule).run data.render.toList = .ok (rules, [])) result
  | .check q timestamp height =>
      v = w ∧ ∃ (decision : Decision) (allowed : Bool) (misconfigured : Option String),
        (World.answer behave now (.check ⟨q, timestamp.getD now, height.getD 0⟩)).run.run w =
          (.ok (.decision decision), w) ∧
        (allowed = true ↔ decision = .granted) ∧
        (∀ e, decision = .misconfigured e → misconfigured = some e.message) ∧
        (misconfigured.isSome = true → allowed = false) ∧
        response.Says 200 true (.object [
          ("allowed", .bool allowed),
          ("misconfigured", misconfigured.elim .null .text)]) .null

/-- The response to a check allows what is granted, and tells what is wrong with what is
misconfigured. -/
theorem says_decision (cause : String) (decision : Decision) :
  ∃ (allowed : Bool) (misconfigured : Option String),
    (allowed = true ↔ decision = .granted) ∧
      (∀ e, decision = .misconfigured e → misconfigured = some e.message) ∧
      (misconfigured.isSome = true → allowed = false) ∧
      (Response.ofResult cause (.ok (.decision decision))).Says 200 true (.object [
        ("allowed", .bool allowed),
        ("misconfigured", misconfigured.elim .null .text)]) .null
  := by
  cases decision with
  | granted => exact ⟨true, none, by simp, by simp, by simp, says_body .ok true _ .null⟩
  | denied => exact ⟨false, none, by simp, by simp, by simp, says_body .ok true _ .null⟩
  | misconfigured e =>
      exact ⟨false, some e.message, by simp, by simp, by simp, says_body .ok true _ .null⟩

end Http

namespace World

open Http

/-- The response to what is made of a result reports the result when right data are written. -/
theorem reports_wrap {α : Type} (m : Attempt η ω α) {f : α → Content}
    {Right : α → Json.Value → Prop} (h : ∀ a, Right a (ofContent (f a))) (cause : String)
    (w : World η ω) :
  (Response.ofResult cause ((do return f (← m) : Attempt η ω Content).run.run w).1).Reports cause
    Right (m.run.run w).1
  := by
  rw [wrap_run]
  exact reports_ofResult h cause (m.run.run w).1

/-- A demand is met by what fulfilling it comes to, when no oracle moves the world. -/
theorem metBy_fulfil {behave : Behaviour η ω} (hbehave : behave.MovesWithin fun w v => v = w)
    (now : UInt64) (cause : String) (w : World η ω) (demand : Demand) :
  demand.MetBy behave now cause w ((fulfil behave now demand).run.run w).2
    (.ofResult cause ((fulfil behave now demand).run.run w).1)
  := by
  cases demand with
  | status =>
      have hroot : Json.Value.orNull ofEntity w.current.status.root =
          w.current.status.root.elim .null fun e => .number e.id.toNat := by
        cases w.current.status.root <;> rfl
      refine ⟨rfl, w.current.status, rfl, ?_⟩
      rw [← hroot]
      exact says_body .ok true (ofContent (.status w.current.status)) .null
  | operation op =>
      refine ⟨((perform behave now op).run.run w).1, ?_, ?_⟩
      · rw [fulfil, wrap_run]
        rfl
      · exact reports_wrap (perform behave now op) receipt?_ofContent cause w
  | manager p =>
      have hworld : ((fulfil behave now (.manager p)).run.run w).2 = w := by
        rw [fulfil, wrap_run, stored_run]
      refine ⟨hworld, w.current.store.manager? p, ?_, ?_⟩
      · exact read_run (·.manager? p) .manager w
      · have hresult : ((stored (·.manager? p) : Attempt η ω (Option Entity)).run.run w).1 =
            w.current.store.manager? p := congrArg Prod.fst (stored_run _ w)
        rw [← hresult]
        apply reports_wrap
        rintro (_ | e) <;> rfl
  | rules e p =>
      have hworld : ((fulfil behave now (.rules e p)).run.run w).2 = w := by
        rw [fulfil, wrap_run, rulesInTurn_run]
      refine ⟨hworld, w.current.store.rulesOf p e, w.current.store.gates_rulesOf p e, ?_, ?_, ?_⟩
      · exact read_run (·.rulesOf p e) (fun rules => .count rules.length) w
      · intro index
        exact read_run (·.rulesOf p e) (fun rules => .rule rules[index]?) w
      · have hresult : ((rulesInTurn e p).run.run w).1 = w.current.store.rulesOf p e :=
          congrArg Prod.fst (rulesInTurn_run e p w)
        rw [← hresult]
        apply reports_wrap
        intro rules
        exact ⟨rfl, writes_ofRule.array rules, run_ofRules rules⟩
  | check q timestamp height =>
      let req : DelegatedAccess.Request := ⟨q, ⟨timestamp.getD now, height.getD 0⟩⟩
      have hdecide : ((decide behave req).run w).2 = w :=
        decide_moves hbehave (fun _ => rfl) (fun _ _ _ huv hvw => hvw.trans huv) req w
      have hanswer : (answer behave now (.check req)).run.run w =
          (.ok (.decision ((decide behave req).run w).1), w) := by
        rw [check_run, hdecide]
      have hfulfil : (fulfil behave now (.check q timestamp height)).run.run w =
          (.ok (.decision ((decide behave req).run w).1), w) := by
        rw [fulfil, wrap_run]
        change ((_ : Except AccessError Content), ((decide behave req).run w).2) = _
        rw [hdecide]
        rfl
      obtain ⟨allowed, misconfigured, hsays⟩ := says_decision cause ((decide behave req).run w).1
      rw [hfulfil]
      exact ⟨rfl, _, allowed, misconfigured, hanswer, hsays⟩

end World

/-! ### Requests -/

namespace Http

/-- The operation that a request performs, if it performs one. -/
def Request.operation? (req : Request) : Option Operation :=
  match req.demand with
  | .ok (.operation op) => some op
  | _ => none

/-- A request for options makes no demand. -/
theorem Request.demand_of_options {req : Request} (h : req.method = .options) :
  ∃ status, req.demand = .error status
  := by
  have hstatus : ¬ req.ReadsStatus := by
    rintro ⟨_, hmethod⟩
    rw [h] at hmethod
    rcases hmethod with hmethod | hmethod <;> contradiction
  have hposts : ∀ r, ¬ req.PostsTo r := by
    rintro r ⟨_, _, _, hmethod⟩
    rw [h] at hmethod
    contradiction
  by_cases hplaced : req.IsPlaced
  · exact ⟨_, demand_of_not_postsTo hplaced hstatus hposts⟩
  · exact ⟨_, demand_of_not_isPlaced hplaced⟩

end Http

namespace World

open Http

/-- A request that makes no demand is answered with the status of its refusal, or with success if it
is for options. -/
theorem respond_refused (behave : Behaviour η ω) (now : UInt64) (cause : String) (w : World η ω)
    {req : Http.Request} {status : StatusCode} (h : req.demand = .error status) :
  (respond behave now cause req).run w =
    (.empty (if req.method = .options then .ok else status), w)
  := by
  rw [respond, h]
  split <;> rfl

/-- A request that makes a demand is answered with what fulfilling the demand comes to. -/
theorem respond_fulfil (behave : Behaviour η ω) (now : UInt64) (cause : String) (w : World η ω)
    {req : Http.Request} {demand : Demand} (h : req.demand = .ok demand) :
  (respond behave now cause req).run w =
    ((Response.ofResult cause ((fulfil behave now demand).run.run w).1).sentFor req.method,
      ((fulfil behave now demand).run.run w).2)
  := by
  have hoptions : req.method ≠ .options := by
    intro hoptions
    obtain ⟨status, hstatus⟩ := Http.Request.demand_of_options hoptions
    rw [hstatus] at h
    contradiction
  rw [respond, if_neg hoptions, h]
  rfl

/-- Any request leaves the world as the operation does that it performs, if it performs one. -/
theorem world_respond {behave : Behaviour η ω} (hbehave : behave.MovesWithin fun w v => v = w)
    (now : UInt64) (cause : String) (w : World η ω) (req : Http.Request) :
  ((respond behave now cause req).run w).2 =
    play behave now (req.operation?.map Act.operation).toList w
  := by
  rw [Http.Request.operation?]
  cases hdemand : req.demand with
  | error status =>
      rw [respond_refused behave now cause w hdemand]
      rfl
  | ok demand =>
      rw [respond_fulfil behave now cause w hdemand]
      have hmet := metBy_fulfil hbehave now cause w demand
      cases demand with
      | operation op =>
          change _ = ((act behave now (.operation op)).run.run w).2
          rw [fulfil, act, wrap_run, wrap_run]
      | status => exact hmet.1
      | manager p => exact hmet.1
      | rules e p => exact hmet.1
      | check q timestamp height => exact hmet.1

/-- Requests that are served in turn leave the world as the operations do that they perform. -/
theorem world_serve {behave : Behaviour η ω} (hbehave : behave.MovesWithin fun w v => v = w)
    (now : UInt64) (cause : String) (w : World η ω) (reqs : List Http.Request) :
  ((reqs.mapM (respond behave now cause)).run w).2 =
    play behave now (reqs.filterMap fun req => req.operation?.map Act.operation) w
  := by
  induction reqs generalizing w with
  | nil => rfl
  | cons req reqs ih =>
      have hsplit : (((req :: reqs).mapM (respond behave now cause)).run w).2 =
          ((reqs.mapM (respond behave now cause)).run
            ((respond behave now cause req).run w).2).2 := by
        rw [List.mapM_cons]
        rfl
      rw [hsplit, ih, world_respond hbehave, List.filterMap_cons]
      cases req.operation? with
      | none => rfl
      | some op => rfl

/-- Whatever the service is asked, its world stays reachable. -/
theorem IsReachable.serve {w : World Empty ω} (hw : w.IsReachable) (now : UInt64)
    (cause : String) (reqs : List Http.Request) :
  ((reqs.mapM (respond oracleless now cause)).run w).2.IsReachable
  := by
  have hbehave : oracleless.MovesWithin (fun w v : World Empty ω => v = w) := nofun
  rw [world_serve hbehave]
  exact hw.run (Run.play (fun handle => nomatch handle) now _ (.refl w))

end World

end DelegatedAccess
