/-!
# Entities

An entity is an actor that may hold a permission, or a resource a permission applies to. The
two share one space of 64-bit numbers, as a resource may itself act. The two largest numbers
are reserved: they stand for every entity and for no entity, and never for a real actor.
-/

namespace DelegatedAccess

/-- An actor or a resource. -/
structure Entity where
  /-- The number that names the entity. -/
  id : UInt64
deriving DecidableEq, Repr

/-- What a role applies to. -/
abbrev Resource := Entity

namespace Entity

/-- Every entity. -/
def any : Entity :=
  ⟨0xffffffffffffffff⟩

/-- No entity: the manager of a burned pair. -/
def burn : Entity :=
  ⟨0xfffffffffffffffe⟩

/-- An entity is reserved when it never denotes a real actor. -/
def IsReserved (e : Entity) : Prop :=
  e = any ∨ e = burn

instance (e : Entity) : Decidable e.IsReserved :=
  inferInstanceAs (Decidable (_ ∨ _))

/-- The number of an entity. -/
def toNat (e : Entity) : Nat :=
  e.id.toNat

/-- The entity with a number, if it fits in 64 bits. -/
def ofNat? (n : Nat) : Option Entity :=
  if n < UInt64.size then some ⟨UInt64.ofNat n⟩ else none

/-- How a message names an entity. -/
def label (e : Entity) : String :=
  if e = any then "entity:any"
  else if e = burn then "entity:burn"
  else s!"entity:{e.toNat}"

instance : ToString Entity where
  toString := label

/-- An entity has its own number and no other. -/
theorem ofNat?_eq_some_iff {n : Nat} {e : Entity} :
  ofNat? n = some e ↔ n = e.toNat
  := by
  constructor
  · intro h
    rw [ofNat?] at h
    split at h
    · obtain rfl := Option.some.inj h
      rw [toNat, UInt64.toNat_ofNat_of_lt' (by assumption)]
    · contradiction
  · rintro rfl
    rw [ofNat?, toNat, if_pos e.id.toNat_lt, UInt64.ofNat_toNat]

end Entity

end DelegatedAccess
