import DelegatedAccess.Text.Reader

/-!
# Reading JSON

A text is read from left to right into what is expected of it, and the first problem met
decides how it is refused: as malformed, if it is no JSON up to there, or as unfit, if it is
JSON but not of the expected kind.
-/

namespace DelegatedAccess.Json

/-- Why a text is refused. -/
inductive Refusal where
  /-- The text is no JSON. -/
  | malformed
  /-- A value is not of the kind that is expected. -/
  | unfit
deriving DecidableEq, Repr

/-- Reads from a JSON text. -/
abbrev JsonReader := Reader Refusal

/-- Refuses a text that is no JSON. -/
def malformed {α : Type} : JsonReader α :=
  throw .malformed

/-- Refuses a value that is not of the expected kind. -/
def unfit {α : Type} : JsonReader α :=
  throw .unfit

/-- Whether a character may stand between the parts of a JSON text. -/
def isBlank (c : Char) : Bool :=
  c == ' ' || c == '\n' || c == '\t' || c == '\r'

/-- Passes over blanks. -/
def skipBlanks : JsonReader Unit :=
  Reader.skipWhile isBlank

/-- Passes over characters that must come next. -/
def expect (word : String) : JsonReader Unit :=
  Reader.expect .malformed word.toList

/-- Passes over blanks and the colon after the name of a member. -/
def expectColon : JsonReader Unit := do
  skipBlanks
  expect ":"

/-- Goes to the next item before a closing bracket, if there is one. A comma must stand before
each item but the first, and nowhere else. -/
def nextItem? (closing : Char) (isFirst : Bool) : JsonReader Bool := do
  skipBlanks
  match ← Reader.peek? with
  | none => malformed
  | some c =>
      if c = closing then return false
      if isFirst then return true
      expect ","
      skipBlanks
      match ← Reader.peek? with
      | none => malformed
      | some c => if c = closing then malformed else return true

end DelegatedAccess.Json
