import DelegatedAccess.Http.Demand
import DelegatedAccess.Http.Message

/-!
# Replies

A reply is a JSON object that says whether the demand was fulfilled, with its data or with the
text of the error. The status of the response follows from the kind of the error.
-/

namespace DelegatedAccess.Http

/-- The number of an entity. -/
def ofEntity (e : Entity) : Json.Value :=
  .number e.toNat

/-- The bytes of a digest. -/
def ofDigest (d : Digest) : Json.Value :=
  .array (d.toList.map fun b => .number b.toNat)

/-- A rule, as it is written in a body. -/
def ofRule (r : Rule) : Json.Value :=
  .object [
    ("arg", .number r.selector.toNat),
    ("op", .number r.code.toNat),
    ("value", .number r.value.toNat)]

/-- The members that name a pair. -/
def ofPair (p : Pair) : List (String × Json.Value) :=
  [("resource", ofEntity p.resource), ("role", ofDigest p.role.digest)]

/-- An event, under the name of its kind. -/
def ofEvent : Event → Json.Value
  | .permissionSet e p allowed ref =>
      .object [("PermissionSet", .object (
        [("entity", ofEntity e)] ++ ofPair p ++ [
          ("allowed", .bool allowed),
          ("rule_ref", .orNull (fun r => ofDigest r.digest) ref)]))]
  | .rulesStored e p ref length =>
      .object [("RulesStored", .object (
        [("entity", ofEntity e)] ++ ofPair p ++ [
          ("rule_ref", ofDigest ref.digest),
          ("len", .number length)]))]
  | .managerChanged p manager =>
      .object [("ManagerChanged", .object (
        ofPair p ++ [("manager", .orNull ofEntity manager)]))]
  | .initialized root => .object [("Initialized", .object [("root", ofEntity root)])]
  | .frozen => .text "Frozen"

/-- What fulfilling a demand comes to. -/
def ofContent : Content → Json.Value
  | .status s =>
      .object [
        ("initialized", .bool s.initialized),
        ("frozen", .bool s.frozen),
        ("root", .orNull ofEntity s.root),
        ("acl_resource", ofEntity s.resource)]
  | .receipt r =>
      .object [
        ("writes", .number r.writes),
        ("rule_ref", .orNull (fun ref => .text ref.hex) r.ref),
        ("events", .array (r.events.map ofEvent))]
  | .manager m => .orNull ofEntity m
  | .rules rs => .array (rs.map ofRule)
  | .decision d =>
      let (allowed, misconfigured) := match d with
        | .granted => (true, none)
        | .denied => (false, none)
        | .misconfigured e => (false, some e.message)
      .object [
        ("allowed", .bool allowed),
        ("misconfigured", .orNull .text misconfigured)]

/-- The status of a response that reports an error. -/
def StatusCode.ofKind : ErrorKind → StatusCode
  | .authorization => forbidden
  | .stateConflict | .initialization => conflict
  | .invalidInput | .configuration => badRequest
  | .storage | .config => internalServerError

/-- The response that reports how fulfilling a demand went, with the cause of an error if the error
is not one of the instance. -/
def Response.ofResult (cause : String) : Except AccessError Content → Response
  | .ok c =>
      ⟨.ok, some (.object [
        ("success", .bool true),
        ("data", ofContent c),
        ("error", .null)])⟩
  | .error e =>
      ⟨.ofKind e.kind, some (.object [
        ("success", .bool false),
        ("data", .null),
        ("error", .text (e.message cause))])⟩

end DelegatedAccess.Http
