import DelegatedAccess.Operation
import DelegatedAccess.Oracle.Policy
import DelegatedAccess.Query

/-!
# Steps

A scenario is a list of steps on one instance: operations and queries, registrations of
oracles and sinks, closing the instance and opening its store again, and edits of the store
that bypass the instance. An oracle of a scenario answers by a policy, or takes steps itself
the first time it is asked.
-/

namespace DelegatedAccess

/-- A table of a store. -/
inductive TableName where
  | grants
  | managers
  | rules
deriving DecidableEq, Repr

mutual

/-- A step of a scenario. -/
inductive Step where
  | operation (operation : Operation)
  | query (query : Query)
  /-- Registers an oracle for an entity. -/
  | register (entity : Entity) (script : Script)
  /-- Adds a sink under a name. -/
  | addSink (name : String)
  /-- Reads what a sink has received. -/
  | readSink (name : String)
  /-- Takes what a sink has received out of it. -/
  | takeSink (name : String)
  /-- Opens the store again, under another configuration if one is given, as a template or
  not. Oracles and sinks are gone. -/
  | reopen (config : Option Config) (template : Bool)
  /-- Looks for a rule sequence in the store. -/
  | findRules (rules : List Rule)
  /-- Reads the whole store. -/
  | dump
  /-- Puts bytes into a table. -/
  | put (table : TableName) (key value : Bytes)
  /-- Takes bytes out of a table. -/
  | erase (table : TableName) (key : Bytes)
  /-- Puts a text into what is known of the instance. -/
  | putAbout (key value : String)
  /-- Takes a text out of what is known of the instance. -/
  | eraseAbout (key : String)

/-- How an oracle of a scenario answers. -/
inductive Script where
  | policy (policy : Policy)
  /-- Takes steps when it is first asked, and always gives the same answer. -/
  | steps (steps : List Step) (answer : Bool)

end

mutual

/-- The number of scripts in a step that take steps, at any depth. -/
def Step.scriptCount : Step → Nat
  | .register _ script => script.scriptCount
  | _ => 0

/-- The number of scripts in a script that take steps, itself included. -/
def Script.scriptCount : Script → Nat
  | .policy _ => 0
  | .steps steps _ => 1 + scriptCountAll steps

/-- The number of scripts in steps that take steps themselves, at any depth. -/
def scriptCountAll : List Step → Nat
  | [] => 0
  | step :: steps => step.scriptCount + scriptCountAll steps

end

/-- The answer of a script to a question. -/
def Script.verdict (script : Script) (q : Question) : Bool :=
  match script with
  | .policy p => p.answer q
  | .steps _ answer => answer

/-- What a step comes to. -/
inductive Outcome where
  | receipt (receipt : Receipt)
  | answer (answer : Answer)
  | events (events : List Event)
  /-- Whether a rule sequence is stored, and what its reference refers to. -/
  | rules (contained : Bool) (loaded : Except AccessError (List Rule))
  | store (store : Store)
  | failure (error : AccessError)
  /-- The store was opened. -/
  | opened
  /-- There is nothing to report. -/
  | done
  /-- The instance is closed, and no step is taken. -/
  | closed

/-- What a step came to, with the calls of oracles that it led to and what the steps of
those came to, each in order. -/
structure Report where
  outcome : Outcome
  calls : List Call
  nested : List Outcome

end DelegatedAccess
