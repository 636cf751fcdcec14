import DelegatedAccess.Scenario.Step

/-!
# Runs of scenarios

A scenario runs on a store that is empty at first. While the instance is closed, because its
configuration was not usable, or because it was to be a template and is initialized, its
store is kept and no step but opening it again is taken.

A script that takes steps does so once, so scripts can nest no deeper than there are such
scripts in the scenario. That number bounds the nesting.
-/

namespace DelegatedAccess

/-- An oracle of a scenario, as it is registered. -/
structure ScriptHandle where
  /-- The entity it is registered for. -/
  entity : Entity
  /-- Its place among the oracles registered so far, which tells it from all others. -/
  serial : Nat
  script : Script

/-- The state of a scenario besides the instance. -/
structure ScenarioHost where
  /-- Whether the instance is open. -/
  isOpen : Bool
  /-- The number of oracles registered so far. -/
  registered : Nat
  /-- The oracles that have taken their steps. -/
  spent : List Nat
  /-- The calls since the last report. -/
  calls : List Call
  /-- What nested steps have come to since the last report. -/
  nested : List Outcome

/-- The world of a scenario. -/
abbrev ScenarioWorld := World ScriptHandle ScenarioHost

/-- A change of the world of a scenario, with an outcome. -/
abbrev ScenarioM := StateM ScenarioWorld

namespace Scenario

/-- How the oracles of a scenario answer. -/
abbrev Behaviour := World.Behaviour ScriptHandle ScenarioHost

/-- Opens the store of the world. -/
def reopen (config : Config) (template : Bool) : ScenarioM (Except AccessError Unit) := do
  let w ← get
  let s := w.current.store
  let started : Except AccessError (Instance ScriptHandle) :=
    if template then Instance.startTemplate config s else Instance.start config s
  match started with
  | .ok i =>
      set (⟨i, { w.host with isOpen := true }⟩ : ScenarioWorld)
      return .ok ()
  | .error e =>
      set (⟨⟨s, config, [], []⟩, { w.host with isOpen := false }⟩ : ScenarioWorld)
      return .error e

/-- Changes the store without the instance. -/
def edit (f : Store → Store) : ScenarioM Outcome := do
  modify fun w => { w with current := { w.current with store := f w.current.store } }
  return .done

/-- Changes a table of a store. -/
def editTable (table : TableName) (f : Table Bytes → Table Bytes) (s : Store) : Store :=
  match table with
  | .grants => { s with grants := f s.grants }
  | .managers => { s with managers := f s.managers }
  | .rules => { s with rules := f s.rules }

/-- What the sink last added under a name has received. -/
def received (i : Instance ScriptHandle) (name : String) : List Event :=
  ((i.sinks.reverse.find? fun k => k.name = name).map Sink.events).getD []

/-- The sinks, with the last one of a name emptied. The last sink comes first. -/
def emptied (name : String) : List Sink → List Sink
  | [] => []
  | k :: ks => if k.name = name then { k with events := [] } :: ks else k :: emptied name ks

/-- Takes a step on an open instance. -/
def take (behave : Behaviour) (now : UInt64) : Step → ScenarioM Outcome
  | .operation op => do
      match ← (World.perform behave now op).run with
      | .ok receipt => return .receipt receipt
      | .error e => return .failure e
  | .query q => do
      match ← (World.answer behave now q).run with
      | .ok a => return .answer a
      | .error e => return .failure e
  | .register e script => do
      modify fun w =>
        { w with
          current := w.current.register e ⟨e, w.host.registered, script⟩
          host := { w.host with registered := w.host.registered + 1 } }
      return .done
  | .addSink name => do
      modify fun w => { w with current := w.current.addSink name }
      return .done
  | .readSink name => return .events (received (← get).current name)
  | .takeSink name => do
      let events := received (← get).current name
      modify fun w =>
        { w with
          current := { w.current with
            sinks := (emptied name w.current.sinks.reverse).reverse } }
      return .events events
  | .reopen config template => do
      match ← reopen (config.getD (← get).current.config) template with
      | .ok () => return .opened
      | .error e => return .failure e
  | .findRules rules => do
      let s := (← get).current.store
      let ref := RuleRef.of rules
      return .rules (s.containsRules ref) ((s.loadRules ref).mapError .configuration)
  | .dump => return .store (← get).current.store
  | .put table key value => edit (editTable table (·.insert key value))
  | .erase table key => edit (editTable table (·.erase key))
  | .putAbout key value => edit fun s => { s with about := s.about.insert (utf8 key) value }
  | .eraseAbout key => edit fun s => { s with about := s.about.erase (utf8 key) }

/-- Takes a step. On a closed instance only opening it again is one. -/
def step (behave : Behaviour) (now : UInt64) (s : Step) : ScenarioM Outcome := do
  match s, (← get).host.isOpen with
  | .reopen .., _ | _, true => take behave now s
  | _, false => return .closed

/-- Notes a call. -/
def note (h : ScriptHandle) (q : Question) : ScenarioM Unit :=
  modify fun w => { w with host := { w.host with calls := w.host.calls ++ [⟨h.entity, q⟩] } }

/-- Notes what a nested step came to. -/
def noteNested (outcome : Outcome) : ScenarioM Unit :=
  modify fun w => { w with host := { w.host with nested := w.host.nested ++ [outcome] } }

/-- Marks a script as having taken its steps. Answers whether it already had. -/
def spend (h : ScriptHandle) : ScenarioM Bool := do
  let already := (← get).host.spent.contains h.serial
  modify fun w => { w with host := { w.host with spent := h.serial :: w.host.spent } }
  return already

/-- How an oracle answers when scripts may nest to a given depth. Each call is noted. A
script that has not taken its steps takes them before it answers. -/
def behaviour (now : UInt64) : (depth : Nat) → Behaviour
  | 0, h, q => do
      note h q
      return h.script.verdict q
  | depth + 1, h, q => do
      note h q
      match h.script with
      | .policy p => return p.answer q
      | .steps steps answer =>
          if ← spend h then
            return answer
          steps.forM fun s => do noteNested (← step (behaviour now depth) now s)
          return answer

/-- Takes a step and reports on it. -/
def report (behave : Behaviour) (now : UInt64) (s : Step) : ScenarioM Report := do
  let outcome ← step behave now s
  let host := (← get).host
  modify fun w => { w with host := { w.host with calls := [], nested := [] } }
  return ⟨outcome, host.calls, host.nested⟩

/-- Opens an empty store and takes the steps of a scenario. -/
def run (now : UInt64) (config : Config) (template : Bool) (steps : List Step) :
    Except AccessError Unit × List Report :=
  let initial : ScenarioWorld := ⟨⟨.empty, config, [], []⟩, ⟨false, 0, [], [], []⟩⟩
  let play : ScenarioM (Except AccessError Unit × List Report) := do
    let opened ← reopen config template
    let reports ← steps.mapM (report (behaviour now (scriptCountAll steps)) now)
    return (opened, reports)
  (play.run initial).1

end Scenario

end DelegatedAccess
