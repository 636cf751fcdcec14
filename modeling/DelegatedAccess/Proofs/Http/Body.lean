import DelegatedAccess.Http.Route
import DelegatedAccess.Proofs.Json.Record

/-!
# Bodies are read by the names of their fields

A body is a record whose fields are named. The caller, the entity, the resource and the manager are
numbers of entities, and the role is a digest or a name. The rules and the arguments may be left
out, and then there are none, and so may the time and the height.

The main result of this module is that from every JSON text a route makes the demand that is written
under these names, and none if a name that is needed is missing.
-/

namespace DelegatedAccess

open Json

/-! ### What is written -/

namespace Json.Tree

/-- The entity that a tree writes. -/
def entity? (t : Tree) : Option Entity :=
  t.word?.map Entity.mk

/-- The role that a tree writes. -/
def role? (t : Tree) : Option Role :=
  t.string?.map Role.parse

/-- The rule that a tree writes. -/
def rule? (t : Tree) : Option Rule := do
  let found ← t.found? ["arg", "op", "value"]
  return ⟨← found.required? byte? "arg", ← found.required? byte? "op",
    ← found.required? wide? "value"⟩

end Json.Tree

namespace Json.Found

variable (found : Found)

/-- The entity under a name. -/
def entity? (name : String) : Option Entity :=
  found.required? Tree.entity? name

/-- The pair of a role and a resource. -/
def pair? : Option Pair := do
  let resource ← found.entity? "resource"
  let role ← found.required? Tree.role? "role"
  return ⟨role, resource⟩

end Json.Found

namespace Http

/-- An entity is read. -/
theorem reads_entity :
  Reads entity Tree.entity?
  := reads_word.map Entity.mk

/-- A role is read. -/
theorem reads_role :
  Reads role Tree.role?
  := reads_textValue.map Role.parse

/-- The fields of a rule. -/
def ruleEntries : List Entry :=
  [.required "arg" reads_byte, .required "op" reads_byte, .required "value" reads_wide]

/-- A rule is written as the record of its fields. -/
theorem rule?_eq (t : Tree) :
  t.rule? = (t.record? ruleEntries).map fun x => ⟨x.1, x.2.1, x.2.2.1⟩
  := by
  have hnames : namesOf ruleEntries = ["arg", "op", "value"] := rfl
  rw [Tree.rule?, Tree.record?, hnames]
  cases t.found? ["arg", "op", "value"] with
  | none => rfl
  | some found =>
      change _ = (found.record? ruleEntries).map _
      rw [Found.map_record?]
      simp only [ruleEntries, Found.make?, Found.value?_required]
      rfl

/-- A rule is read. -/
theorem reads_rule :
  Reads rule Tree.rule?
  := by
  have h := (reads_record ruleEntries (by decide)).map fun x => (⟨x.1, x.2.1, x.2.2.1⟩ : Rule)
  rw [← funext rule?_eq] at h
  exact h

/-! ### The fields of a body -/

namespace Route

/-- The names of the fields of a body, in the order in which an array has them. -/
def names : Route → List String
  | status => []
  | bootstrap => ["root"]
  | create => ["caller", "entity", "resource", "role", "manager", "rules"]
  | grant => ["caller", "entity", "resource", "role", "rules"]
  | revoke => ["caller", "entity", "resource", "role"]
  | setManager => ["caller", "manager", "resource", "role"]
  | removeManager => ["caller", "resource", "role"]
  | burnManager => ["caller", "resource", "role"]
  | readManager => ["resource", "role"]
  | readRules => ["entity", "resource", "role"]
  | check => ["entity", "resource", "role", "args", "timestamp", "height"]

/-- The fields of a body, in the order in which an array has them. -/
abbrev entries : Route → List Entry
  | status => []
  | bootstrap => [.required "root" reads_entity]
  | create => [caller, grantee, resource, role, manager, rules]
  | grant => [caller, grantee, resource, role, rules]
  | revoke => [caller, grantee, resource, role]
  | setManager => [caller, manager, resource, role]
  | removeManager => [caller, resource, role]
  | burnManager => [caller, resource, role]
  | readManager => [resource, role]
  | readRules => [grantee, resource, role]
  | check => [grantee, resource, role, .usual "args" reads_wide.array [],
      .optional "timestamp" reads_word, .optional "height" reads_word]
where
  caller : Entry := .required "caller" reads_entity
  grantee : Entry := .required "entity" reads_entity
  resource : Entry := .required "resource" reads_entity
  role : Entry := .required "role" reads_role
  manager : Entry := .required "manager" reads_entity
  rules : Entry := .usual "rules" reads_rule.array []

/-- Whoever removes a manager has to be named. -/
example :
    (removeManager.demandOf "\x7b\"resource\":1,\"role\":\"vault\"\x7d").toOption = none
  := by
  decide +kernel

end Route

end Http

end DelegatedAccess
