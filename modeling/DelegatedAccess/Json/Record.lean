import DelegatedAccess.Json.Kind
import DelegatedAccess.Json.Skip

/-!
# Records

A record has named fields, each with a kind of values. It is written as an object, with its
fields in any order and others that are passed over, or as an array of its fields in order. A
field that is not written has a value only if its kind provides one, which may be so in an
object and not in an array.
-/

namespace DelegatedAccess.Json

/-- A field of a record. -/
structure Field where
  name : String
  /-- What the value of the field is read as. -/
  Carrier : Type
  /-- Reads the value. -/
  read : JsonReader Carrier
  /-- The value when the field is not in the object. -/
  ifAbsent : Option Carrier
  /-- The value when the array ends before the field. -/
  ifShort : Option Carrier

/-- A field that must be written. -/
def Field.required {α : Type} (name : String) (read : JsonReader α) : Field :=
  { name, Carrier := α, read, ifAbsent := none, ifShort := none }

/-- A field that may be left out, and then has a usual value. -/
def Field.usual {α : Type} (name : String) (read : JsonReader α) (value : α) : Field :=
  { name, Carrier := α, read, ifAbsent := some value, ifShort := some value }

/-- A field that may be null, or left out of an object. -/
def Field.optional {α : Type} (name : String) (read : JsonReader α) : Field :=
  { name
    Carrier := Option α
    read := nullable read
    ifAbsent := some none
    ifShort := none }

/-- The values of fields. -/
@[reducible] def Record : List Field → Type
  | [] => Unit
  | f :: fs => f.Carrier × Record fs

/-- The values of those fields that have been read. -/
@[reducible] def Partial : List Field → Type
  | [] => Unit
  | f :: fs => Option f.Carrier × Partial fs

/-- No field has been read. -/
def Partial.empty : (fs : List Field) → Partial fs
  | [] => ()
  | _ :: fs => (none, empty fs)

/-- Reads the value of the member of a name, which has been passed. A field must not be
written twice, and a member that is no field is passed over. -/
def Partial.fill (name : String) : (fs : List Field) → Partial fs → JsonReader (Partial fs)
  | [], () => do
      expectColon
      skipValue
  | f :: fs, (value, rest) => do
      if f.name = name then
        if value.isSome then unfit
        expectColon
        return (some (← f.read), rest)
      else return (value, ← fill name fs rest)

/-- Completes the fields that have been read by the values of those that are absent. -/
def Partial.complete : (fs : List Field) → Partial fs → JsonReader (Record fs)
  | [], () => return ()
  | f :: fs, (value, rest) => do
      match value.or f.ifAbsent with
      | some v => return (v, ← complete fs rest)
      | none => unfit

namespace Record

/-- The fields of a record in an array, whose bracket has been passed. -/
def readItems : (fs : List Field) → (isFirst : Bool) → JsonReader (Record fs)
  | [], _ => return ()
  | f :: fs, isFirst => do
      if ← nextItem? ']' isFirst then
        let v ← f.read
        return (v, ← readItems fs false)
      else
        match f.ifShort with
        | some v => return (v, ← readItems fs isFirst)
        | none => unfit

/-- The values of fields after the next member of an object, if there is one before the closing
brace. -/
def nextMember? (fs : List Field) : Bool × Partial fs → JsonReader (Option (Bool × Partial fs))
  | (isFirst, values) => do
      if ← nextItem? '}' isFirst then
        let name ← text
        return some (false, ← values.fill name)
      else return none

/-- The fields of a record in an object, whose brace has been passed. -/
def readMembers (fs : List Field) : JsonReader (Record fs) := do
  let (_, values) ← Reader.iterateUntilNone .malformed (nextMember? fs) (true, Partial.empty fs)
  values.complete

/-- A record, as an object or as an array. -/
def read (fs : List Field) : JsonReader (Record fs) := do
  skipBlanks
  match ← Reader.peek? with
  | some '[' =>
      Reader.advance
      let values ← readItems fs true
      skipBlanks
      expect "]"
      return values
  | some '{' =>
      Reader.advance
      let values ← readMembers fs
      expect "\x7d"
      return values
  | _ => refuse

end Record

end DelegatedAccess.Json
