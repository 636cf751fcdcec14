import DelegatedAccess.Json.Number
import DelegatedAccess.Json.Text

/-!
# Values that are passed over

A value that nobody asked for only has to be written correctly. Its arrays and objects may
nest to any depth: those that are open are kept in a list, the innermost first.
-/

namespace DelegatedAccess.Json

/-- A value that contains others. -/
inductive Container where
  | array
  | object
deriving DecidableEq, Repr

/-- The character that ends a container. -/
def Container.closing : Container → Char
  | array => ']'
  | object => '}'

/-- An open container. -/
structure Frame where
  container : Container
  /-- Whether no item of it has been passed. -/
  isFresh : Bool
deriving DecidableEq, Repr

/-- Passes over a value, or goes into it if it contains others. -/
def enter : JsonReader (Option Frame) := do
  skipBlanks
  match ← Reader.peek? with
  | some 'n' => expect "null"
  | some 't' => expect "true"
  | some 'f' => expect "false"
  | some '"' => skipText
  | some '[' =>
      Reader.advance
      return some ⟨.array, true⟩
  | some '{' =>
      Reader.advance
      return some ⟨.object, true⟩
  | _ =>
      let _ ← numeral
  return none

/-- Passes over the next part of the innermost open container: an item, which may be opened,
or the closing character. Gives the containers that are then open. -/
def passOver : List Frame → JsonReader (Option (List Frame))
  | [] => return none
  | ⟨c, isFresh⟩ :: outer => do
      if ← nextItem? c.closing isFresh then
        if c = .object then
          skipText
          expectColon
        return some ((← enter).toList ++ ⟨c, false⟩ :: outer)
      else
        Reader.advance
        return some outer

/-- Passes over a value. -/
def skipValue : JsonReader Unit := do
  let _ ← Reader.iterateUntilNone .malformed passOver (← enter).toList

end DelegatedAccess.Json
