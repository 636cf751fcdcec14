import DelegatedAccess.Operation
import DelegatedAccess.Query

/-!
# Demands

What can be demanded of an instance over HTTP, and what fulfilling a demand comes to. A check
is made at the present time and height zero, unless it says otherwise. The rules of a grant are
counted first and then read one by one.
-/

namespace DelegatedAccess

namespace Http

/-- What is demanded of an instance. -/
inductive Demand where
  /-- What is the instance? -/
  | status
  /-- Perform an operation. -/
  | operation (op : Operation)
  /-- Who manages a pair? -/
  | manager (pair : Pair)
  /-- Which rules gate the grant to an entity? -/
  | rules (entity : Entity) (pair : Pair)
  /-- What is decided on a question, at a given time and height? -/
  | check (question : Question) (timestamp height : Option UInt64)
deriving DecidableEq, Repr

/-- What fulfilling a demand comes to. -/
inductive Content where
  | status (status : Status)
  | receipt (receipt : Receipt)
  | manager (manager : Option Entity)
  | rules (rules : List Rule)
  | decision (decision : Decision)
deriving DecidableEq, Repr

end Http

namespace World

variable {η ω : Type}

/-- The rules that gate the grant of a pair to an entity, read one by one: how many there are, and
then which one is at each index. An index at which there is none is left out. -/
def rulesInTurn (e : Entity) (p : Pair) : Attempt η ω (List Rule) := do
  let count := (← stored (·.rulesOf p e)).length
  let found ← (List.range count).mapM fun index => do
    return (← stored (·.rulesOf p e))[index]?
  return found.filterMap id

/-- Fulfils a demand at a given time. -/
def fulfil (behave : Behaviour η ω) (now : UInt64) : Http.Demand → Attempt η ω Http.Content
  | .status => return .status (← get).current.status
  | .operation op => return .receipt (← perform behave now op)
  | .manager p => return .manager (← stored (·.manager? p))
  | .rules e p => return .rules (← rulesInTurn e p)
  | .check q timestamp height => do
      let req : Request := ⟨q, ⟨timestamp.getD now, height.getD 0⟩⟩
      return .decision (← (decide behave req : StateM (World η ω) Decision))

end World

end DelegatedAccess
