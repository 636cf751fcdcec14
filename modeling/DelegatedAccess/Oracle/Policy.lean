import DelegatedAccess.Oracle.Basic

/-!
# Policies

A policy is a fixed table that answers questions. Its answers depend on the question alone.
-/

namespace DelegatedAccess

/-- A table that answers questions. -/
inductive Policy where
  /-- The same answer to every question. -/
  | constant (answer : Bool)
  /-- Yes to the entities listed. -/
  | callers (entities : List Entity)
  /-- Yes on the resources listed. -/
  | resources (resources : List Resource)
  /-- Yes for the roles listed. -/
  | roles (roles : List Role)
  /-- Yes when there is an argument at an index and it has a given value. -/
  | argument (index : Nat) (value : Value)
  /-- Yes when there is a given number of arguments. -/
  | arity (count : Nat)
deriving DecidableEq, Repr

/-- The answer of a policy. -/
def Policy.answer (p : Policy) (q : Question) : Bool :=
  match p with
  | .constant b => b
  | .callers es => q.who ∈ es
  | .resources rs => q.pair.resource ∈ rs
  | .roles rs => q.pair.role ∈ rs
  | .argument i v => q.args[i]? = some v
  | .arity n => q.args.length = n

/-- A question put to the oracle that rules name by an entity. -/
structure Call where
  oracle : Entity
  question : Question
deriving DecidableEq, Repr

/-- The oracles that answer by the policies registered for their entities, and note each
call. Of two policies for one entity the later one counts. -/
def Policy.panel (policies : List (Entity × Policy)) : Panel (List Call) :=
  fun e => (policies.reverse.lookup e).map fun p q calls => (p.answer q, calls ++ [⟨e, q⟩])

end DelegatedAccess
