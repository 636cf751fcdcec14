import DelegatedAccess.Http.Demand
import DelegatedAccess.Http.Message
import DelegatedAccess.Json.Record

/-!
# Routes

A route is a path and a method under which one kind of demand is made. The body of a request
gives the details of the demand as a record.
-/

namespace DelegatedAccess.Http

/-- A kind of demand. -/
inductive Route where
  | status
  | bootstrap
  | create
  | grant
  | revoke
  | setManager
  | removeManager
  | burnManager
  | readManager
  | readRules
  | check
deriving DecidableEq, Repr

namespace Route

/-- All routes. -/
def all : List Route :=
  [status, bootstrap, create, grant, revoke, setManager, removeManager, burnManager,
    readManager, readRules, check]

/-- The path of a route. -/
def path : Route → String
  | status => "/status"
  | bootstrap => "/initialize"
  | create => "/permissions"
  | grant => "/grant"
  | revoke => "/revoke"
  | setManager => "/manager"
  | removeManager => "/manager/remove"
  | burnManager => "/manager/burn"
  | readManager => "/manager/get"
  | readRules => "/rules/get"
  | check => "/check"

/-- The route with a path. -/
def ofPath? (path : String) : Option Route :=
  all.find? fun r => r.path = path

/-- Whether a method may be used on a route. -/
def allows (r : Route) (m : Method) : Bool :=
  match r with
  | status => m = .get || m = .head
  | _ => m = .post

end Route

/-! ## Bodies -/

/-- Reads an entity from its number. -/
def entity : Json.JsonReader Entity := do
  return ⟨← Json.word⟩

/-- Reads a role from its digest or its name. -/
def role : Json.JsonReader Role := do
  return Role.parse (← Json.textValue)

/-- Reads a rule. -/
def rule : Json.JsonReader Rule := do
  let (selector, code, value, ()) ← Json.Record.read [
    .required "arg" Json.byte,
    .required "op" Json.byte,
    .required "value" Json.wide]
  return { selector, code, value }

/-- The entity that makes a demand. -/
def callerField : Json.Field :=
  .required "caller" entity

/-- The entity that holds a grant or asks for it. -/
def entityField : Json.Field :=
  .required "entity" entity

/-- The resource of a pair. -/
def resourceField : Json.Field :=
  .required "resource" entity

/-- The role of a pair. -/
def roleField : Json.Field :=
  .required "role" role

/-- The manager of a pair. -/
def managerField : Json.Field :=
  .required "manager" entity

/-- The rules of a grant, which are none if they are left out. -/
def rulesField : Json.Field :=
  .usual "rules" (Json.array rule) []

/-- Reads the details of the demand on a route. -/
def Route.demand : Route → Json.JsonReader Demand
  | .status => return .status
  | .bootstrap => do
      let (root, ()) ← Json.Record.read [.required "root" entity]
      return .operation (.bootstrap root)
  | .create => do
      let (caller, grantee, resource, role, manager, rules, ()) ← Json.Record.read
        [callerField, entityField, resourceField, roleField, managerField, rulesField]
      return .operation (.create caller grantee ⟨role, resource⟩ manager rules)
  | .grant => do
      let (caller, grantee, resource, role, rules, ()) ← Json.Record.read
        [callerField, entityField, resourceField, roleField, rulesField]
      return .operation (.grant caller grantee ⟨role, resource⟩ rules)
  | .revoke => do
      let (caller, grantee, resource, role, ()) ← Json.Record.read
        [callerField, entityField, resourceField, roleField]
      return .operation (.revoke caller grantee ⟨role, resource⟩)
  | .setManager => do
      let (caller, manager, resource, role, ()) ← Json.Record.read
        [callerField, managerField, resourceField, roleField]
      return .operation (.setManager caller manager ⟨role, resource⟩)
  | .removeManager => do
      let (caller, resource, role, ()) ← Json.Record.read
        [callerField, resourceField, roleField]
      return .operation (.removeManager caller ⟨role, resource⟩)
  | .burnManager => do
      let (caller, resource, role, ()) ← Json.Record.read
        [callerField, resourceField, roleField]
      return .operation (.burnManager caller ⟨role, resource⟩)
  | .readManager => do
      let (resource, role, ()) ← Json.Record.read [resourceField, roleField]
      return .manager ⟨role, resource⟩
  | .readRules => do
      let (holder, resource, role, ()) ← Json.Record.read
        [entityField, resourceField, roleField]
      return .rules holder ⟨role, resource⟩
  | .check => do
      let (who, resource, role, args, timestamp, height, ()) ← Json.Record.read
        [entityField, resourceField, roleField, .usual "args" (Json.array Json.wide) [],
          .optional "timestamp" Json.word, .optional "height" Json.word]
      return .check ⟨who, ⟨role, resource⟩, args⟩ timestamp height

/-- The demand that a body makes on a route. What follows the record is not looked at. -/
def Route.demandOf (r : Route) (body : String) : Except Json.Refusal Demand :=
  (r.demand.run body.toList).map Prod.fst

end DelegatedAccess.Http
