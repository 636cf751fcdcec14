import DelegatedAccess.Role
import DelegatedAccess.Rule.Basic

/-!
# Requests and oracles

A request asks whether an entity may exercise a role on a resource with given arguments, at
a given time and height. An oracle is a decision procedure of the host that rules may
consult. It is asked a question, which is the request without the time and the height, and
may change the state of the host while it answers.
-/

namespace DelegatedAccess

/-- What rules may refer to besides the call arguments. -/
structure Context where
  /-- The time, in seconds since 1970. -/
  timestamp : UInt64
  /-- A number that the host only ever increases. -/
  height : UInt64
deriving DecidableEq, Repr

/-- May an entity exercise a role on a resource with these arguments? -/
structure Question where
  who : Entity
  pair : Pair
  args : List Value
deriving DecidableEq, Repr

/-- A question, in a context. -/
structure Request where
  question : Question
  context : Context
deriving DecidableEq, Repr

/-- A decision procedure of a host with states `σ`. -/
abbrev Oracle (σ : Type) := Question → StateM σ Bool

/-- The oracles that can be consulted, by the entities that rules name them by. -/
abbrev Panel (σ : Type) := Entity → Option (Oracle σ)

namespace Panel

variable {σ : Type}

/-- The panel without oracles. -/
def empty : Panel σ :=
  fun _ => none

/-- The oracle a value names. Values beyond 64 bits name none. -/
def named? (p : Panel σ) (v : Value) : Option (Oracle σ) :=
  (Entity.ofNat? v.toNat).bind p

end Panel

end DelegatedAccess
