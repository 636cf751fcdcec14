import DelegatedAccess.Http.Reply
import DelegatedAccess.Proofs.Http.Body
import DelegatedAccess.Proofs.Json.Writing
import DelegatedAccess.Proofs.Role

/-!
# Replies are read back by the names of their members

A reply says under the name `success` whether a demand was fulfilled, and has its data or the text
of the error. The data of an operation are its receipt: the number of writes, the reference to the
rules, in hexadecimal, and the events in their order, each under the name of its kind. The data of a
question about rules are the rules.

The main results of this module are that from what is written for a receipt, and for rules, exactly
these are read back, and that each response reports the result that it is made for.
-/

namespace DelegatedAccess

/-! ### What is written -/

namespace Json.Tree

/-- The truth value that a tree writes. -/
def bool? : Tree → Option Bool
  | bool b => some b
  | _ => none

/-- The digest whose bytes a tree lists. -/
def digest? (t : Tree) : Option Digest := do
  Digest.ofBytes? (← t.array? byte?)

/-- The reference whose bytes a tree lists. -/
def reference? (t : Tree) : Option RuleRef :=
  t.digest?.map RuleRef.mk

/-- The reference that a tree writes in hexadecimal, as roles are written. -/
def hexReference? (t : Tree) : Option RuleRef := do
  let role ← Role.ofHex? (← t.string?)
  return ⟨role.digest⟩

/-- The only member of an object. -/
def member? : Tree → Option (String × Tree)
  | object [(_, name, t)] _ => some (name.string, t)
  | _ => none

end Json.Tree

namespace Json.Found

/-- The pair of a role, by its digest, and a resource. -/
def subject? (found : Found) : Option Pair := do
  let resource ← found.entity? "resource"
  let digest ← found.required? Tree.digest? "role"
  return ⟨⟨digest⟩, resource⟩

end Json.Found

namespace Json.Tree

/-- The event of a kind, whose details a tree writes. -/
def eventOf? (kind : String) (t : Tree) : Option Event :=
  match kind with
  | "Initialized" => do
      let found ← t.found? ["root"]
      return .initialized (← found.entity? "root")
  | "ManagerChanged" => do
      let found ← t.found? ["resource", "role", "manager"]
      return .managerChanged (← found.subject?) (← found.required? (nullable? entity?) "manager")
  | "PermissionSet" => do
      let found ← t.found? ["entity", "resource", "role", "allowed", "rule_ref"]
      return .permissionSet (← found.entity? "entity") (← found.subject?)
        (← found.required? bool? "allowed") (← found.required? (nullable? reference?) "rule_ref")
  | "RulesStored" => do
      let found ← t.found? ["entity", "resource", "role", "rule_ref", "len"]
      return .rulesStored (← found.entity? "entity") (← found.subject?)
        (← found.required? reference? "rule_ref") (← found.required? number? "len")
  | _ => none

/-- The event that a tree tells of: under the name of its kind, unless it has no details. -/
def event? : Tree → Option Event
  | text s => if s.string = "Frozen" then some .frozen else none
  | t => do
      let (kind, details) ← t.member?
      details.eventOf? kind

/-- The receipt that a tree writes. -/
def receipt? (t : Tree) : Option Receipt := do
  let found ← t.found? ["writes", "rule_ref", "events"]
  return ⟨← found.required? number? "writes",
    ← found.required? (nullable? hexReference?) "rule_ref",
    ← found.required? (array? event?) "events"⟩

end Json.Tree

/-! ### What is read back -/

namespace Json

/-- A truth value that is written is held. -/
@[simp] theorem bool?_tree (b : Bool) :
  (Value.bool b).tree.bool? = some b
  := rfl

/-- The only member that is written is held. -/
@[simp] theorem member?_tree (name : String) (v : Value) :
  (Value.object [(name, v)]).tree.member? = some (name, v.tree)
  := by
  change some ((Letters.ofString name).string, v.tree) = _
  rw [Letters.string_ofString]

end Json

namespace Http

open Json

/-- What is written for an entity holds the entity. -/
theorem writes_ofEntity :
  Writes ofEntity Tree.entity?
  := by
  intro e
  rw [ofEntity, Entity.toNat, Tree.entity?, word?_tree]
  rfl

/-- What is written for a digest holds the digest. -/
theorem writes_ofDigest :
  Writes ofDigest Tree.digest?
  := by
  intro d
  have hbytes : (ofDigest d).tree.array? Tree.byte? = some d.bytes :=
    (Writes.array byte?_tree) d.bytes
  rw [Tree.digest?, hbytes]
  exact Digest.ofBytes?_eq_some_iff.mpr rfl

/-- What is written for a reference holds the reference. -/
theorem writes_reference :
  Writes (fun r : RuleRef => ofDigest r.digest) Tree.reference?
  := by
  intro r
  rw [Tree.reference?, writes_ofDigest r.digest]
  rfl

/-- What is written for a reference in hexadecimal holds the reference. -/
theorem writes_hex :
  Writes (fun r : RuleRef => .text r.hex) Tree.hexReference?
  := by
  intro r
  have hrole : Role.ofHex? r.hex = some ⟨r.digest⟩ := Role.ofHex?_hex ⟨r.digest⟩
  rw [Tree.hexReference?, string?_tree]
  change (Role.ofHex? r.hex).bind _ = _
  rw [hrole]
  rfl

/-- The event that is written under the name of its kind is held. -/
theorem event?_tree (kind : String) (details : Json.Value) :
  (Json.Value.object [(kind, details)]).tree.event? = details.tree.eventOf? kind
  := by
  have hmember := member?_tree kind details
  rw [Value.tree] at hmember ⊢
  rw [Tree.event?, hmember]
  · rfl
  · intro s
    exact Tree.noConfusion

/-- What is written under a name is found there. -/
theorem required?_of_writes {α : Type} {write : α → Json.Value} {take? : Tree → Option α}
    (h : Writes write take?) {ms : List (String × Json.Value)} {name : String} {a : α}
    (hname : ms.lookup name = some (write a)) :
  (foundOf ms).required? take? name = some a
  := by
  change ((ms.lookup name).map Value.tree).bind take? = some a
  rw [hname]
  exact h a

/-- A pair that is written is found. -/
theorem subject?_of_writes {ms : List (String × Json.Value)} {p : Pair}
    (hresource : ms.lookup "resource" = some (ofEntity p.resource))
    (hrole : ms.lookup "role" = some (ofDigest p.role.digest)) :
  (foundOf ms).subject? = some p
  := by
  rw [Found.subject?, Found.entity?, required?_of_writes writes_ofEntity hresource,
    required?_of_writes writes_ofDigest hrole]
  rfl

/-- What is written for an event holds the event. -/
theorem writes_ofEvent :
  Writes ofEvent Tree.event?
  := by
  intro event
  cases event with
  | frozen => rfl
  | initialized root =>
      rw [ofEvent, event?_tree, Tree.eventOf?, found?_tree_bind (by simp), Found.entity?,
        required?_of_writes writes_ofEntity rfl]
      rfl
  | managerChanged p manager =>
      rw [ofEvent, event?_tree, Tree.eventOf?, found?_tree_bind (by simp [ofPair]),
        subject?_of_writes rfl rfl, required?_of_writes (writes_ofEntity.orNull rfl) rfl]
      rfl
  | permissionSet e p allowed ref =>
      rw [ofEvent, event?_tree, Tree.eventOf?, found?_tree_bind (by simp [ofPair]),
        Found.entity?, required?_of_writes writes_ofEntity rfl, subject?_of_writes rfl rfl,
        required?_of_writes bool?_tree rfl, required?_of_writes (writes_reference.orNull rfl) rfl]
      rfl
  | rulesStored e p ref length =>
      rw [ofEvent, event?_tree, Tree.eventOf?, found?_tree_bind (by simp [ofPair]),
        Found.entity?, required?_of_writes writes_ofEntity rfl, subject?_of_writes rfl rfl,
        required?_of_writes writes_reference rfl, required?_of_writes number?_tree rfl]
      rfl

/-- What is written for a receipt holds the receipt. -/
theorem receipt?_ofContent (r : Receipt) :
  (ofContent (.receipt r)).tree.receipt? = some r
  := by
  rw [ofContent, Tree.receipt?, found?_tree_bind (by simp),
    required?_of_writes number?_tree rfl, required?_of_writes (writes_hex.orNull rfl) rfl,
    required?_of_writes writes_ofEvent.array rfl]
  rfl

/-- What is written for a rule holds the rule. -/
theorem writes_ofRule :
  Writes ofRule Tree.rule?
  := by
  intro r
  rw [ofRule, Tree.rule?, found?_tree_bind (by simp), required?_of_writes byte?_tree rfl,
    required?_of_writes byte?_tree rfl, required?_of_writes wide?_tree rfl]
  rfl

/-- Rules are read back from the text that is written for them, as they are read from the body of a
request. -/
theorem run_ofRules (rules : List Rule) :
  (Json.array rule).run (Json.Value.array (rules.map ofRule)).render.toList = .ok (rules, [])
  := by
  have hfollows : Json.Follows [] := fun c hc => nomatch hc
  have hread : (Json.array rule).result? ((Json.Value.array (rules.map ofRule)).tree.chars ++ []) =
      some (rules, []) := by
    rcases reads_rule.array.next _ hfollows with heq | ⟨hnone, _⟩
    · rw [heq, writes_ofRule.array rules]
      rfl
    · rw [writes_ofRule.array rules] at hnone
      contradiction
  rw [List.append_nil, Json.chars_tree, Reader.result?] at hread
  cases hrun : (Json.array rule).run (Json.Value.array (rules.map ofRule)).render.toList with
  | error refusal =>
      rw [hrun] at hread
      contradiction
  | ok x =>
      rw [hrun] at hread
      rw [Option.some.inj hread]

/-! ### What a response says -/

/-- The number of the status under which an error is reported. -/
def errorNumber : AccessError → Nat
  | .unauthorized .. => 403
  | .managerExists _ | .initialization _ => 409
  | .configuration _ | .reservedEntity .. | .invalidRules _ => 400
  | .storage | .io | .config _ => 500

/-- A response says, under the number of a status, whether a demand was fulfilled, with the data and
the error. Its content is the text of this. -/
structure Response.Says (response : Response) (number : Nat) (success : Bool)
    (data error : Json.Value) : Prop where
  number : response.status.number = number
  body : response.body =
    some (.object [("success", .bool success), ("data", data), ("error", error)])
  content : response.content.toList =
    (Json.Value.object [("success", .bool success), ("data", data), ("error", error)]).tree.chars

/-- A response reports a result: by data that are right for it, or by the text of the error. -/
def Response.Reports {α : Type} (response : Response) (cause : String)
    (Right : α → Json.Value → Prop) : Except AccessError α → Prop
  | .ok a => ∃ data, Right a data ∧ response.Says 200 true data .null
  | .error e => response.Says (errorNumber e) false .null (.text (e.message cause))

/-- A response with a body says what the body is. -/
theorem says_body (status : StatusCode) (success : Bool) (data error : Json.Value) :
  (Response.mk status (some (.object [("success", .bool success), ("data", data),
    ("error", error)]))).Says status.number success data error
  where
  number := rfl
  body := rfl
  content := (chars_tree _).symm

/-- The response to a result reports it when right data are written for what it comes to. -/
theorem reports_ofResult {α : Type} {f : α → Content} {Right : α → Json.Value → Prop}
    (h : ∀ a, Right a (ofContent (f a))) (cause : String) (result : Except AccessError α) :
  (Response.ofResult cause (result.map f)).Reports cause Right result
  := by
  cases result with
  | ok a => exact ⟨_, h a, says_body .ok true (ofContent (f a)) .null⟩
  | error e =>
      have hnumber : (StatusCode.ofKind e.kind).number = errorNumber e := by
        cases e <;> rfl
      have hsays := says_body (.ofKind e.kind) false .null (.text (e.message cause))
      rw [hnumber] at hsays
      exact hsays

/-- The largest value of a rule is written in full. -/
example :
    (Response.ofResult "" (.ok (.rules [⟨205, 7, BitVec.allOnes 128⟩]))).content =
      "\x7b\"success\":true,\"data\":[\x7b\"arg\":205,\"op\":7," ++
        "\"value\":340282366920938463463374607431768211455\x7d],\"error\":null\x7d"
  := by
  decide +kernel

end Http

end DelegatedAccess
