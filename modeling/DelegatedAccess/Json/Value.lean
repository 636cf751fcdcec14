import DelegatedAccess.Hex

/-!
# JSON values

The JSON values that are written, and their compact text. The numbers are the natural ones,
and the members of an object stand in the order in which they are given.
-/

namespace DelegatedAccess.Json

/-- A JSON value. -/
inductive Value where
  | null
  | bool (b : Bool)
  | number (n : Nat)
  | text (s : String)
  | array (items : List Value)
  | object (members : List (String × Value))

/-- How a character is written between quotes. Only quotes, backslashes and control characters
are escaped. -/
def escape (c : Char) : List Char :=
  if c = '"' then ['\\', '"']
  else if c = '\\' then ['\\', '\\']
  else if c = '\x08' then ['\\', 'b']
  else if c = '\x0c' then ['\\', 'f']
  else if c = '\n' then ['\\', 'n']
  else if c = '\r' then ['\\', 'r']
  else if c = '\t' then ['\\', 't']
  else if c < ' ' then
    ['\\', 'u', '0', '0', Hex.digit (c.toNat / 16), Hex.digit (c.toNat % 16)]
  else [c]

/-- A text between quotes. -/
def quote (s : String) : String :=
  "\"" ++ String.ofList (s.toList.flatMap escape) ++ "\""

/-- Pieces between two brackets, with commas between them. -/
def enclose (opening : String) (pieces : List String) (closing : String) : String :=
  opening ++ ",".intercalate pieces ++ closing

mutual

/-- The compact text of a value. -/
def Value.render : Value → String
  | .null => "null"
  | .bool b => if b then "true" else "false"
  | .number n => toString n
  | .text s => quote s
  | .array items => enclose "[" (renderItems items) "]"
  | .object members => enclose "\x7b" (renderMembers members) "\x7d"

/-- The compact texts of values. -/
def renderItems : List Value → List String
  | [] => []
  | v :: vs => v.render :: renderItems vs

/-- The compact texts of the members of an object. -/
def renderMembers : List (String × Value) → List String
  | [] => []
  | (name, v) :: ms => (quote name ++ ":" ++ v.render) :: renderMembers ms

end

/-- The value of an optional thing, which is null if there is none. -/
def Value.orNull {α : Type} (f : α → Value) : Option α → Value
  | none => .null
  | some a => f a

end DelegatedAccess.Json
