import DelegatedAccess.Hex
import DelegatedAccess.Json.Reader

/-!
# JSON text

Text between quotes. A control character must be escaped. A character beyond the 16-bit ones
is escaped as a pair of surrogates, and a surrogate has no meaning alone. Where a text is only
passed over, surrogates are not looked at.
-/

namespace DelegatedAccess.Json

/-- The number written by four hexadecimal digits. -/
def unit16 : JsonReader Nat := do
  match ← Reader.takeExactly? 4 with
  | none => malformed
  | some digits =>
      match digits.mapM Hex.value? with
      | none => malformed
      | some values => return values.foldl (fun n v => 16 * n + v) 0

/-- The character that the digits after a backslash and a `u` stand for, together with the
second escape of a pair if they are the first surrogate. -/
def codePoint : JsonReader Char := do
  let first ← unit16
  if 0xd800 ≤ first ∧ first < 0xdc00 then
    expect "\\u"
    let second ← unit16
    if 0xdc00 ≤ second ∧ second < 0xe000 then
      return Char.ofNat (0x10000 + 0x400 * (first - 0xd800) + (second - 0xdc00))
    else malformed
  else if 0xdc00 ≤ first ∧ first < 0xe000 then malformed
  else return Char.ofNat first

/-- Passes over the digits after a backslash and a `u`. -/
def anyUnit : JsonReader Char := do
  let _ ← unit16
  return '\ufffd'

/-- The character that an escape stands for, after the backslash. -/
def escaped (unicode : JsonReader Char) : JsonReader Char := do
  let c ← Reader.peek?
  Reader.advance
  match c with
  | some '"' => return '"'
  | some '\\' => return '\\'
  | some '/' => return '/'
  | some 'b' => return '\x08'
  | some 'f' => return '\x0c'
  | some 'n' => return '\n'
  | some 'r' => return '\r'
  | some 't' => return '\t'
  | some 'u' => unicode
  | _ => malformed

/-- The next character between quotes, unless the closing quote is passed. -/
def letter? (unicode : JsonReader Char) : JsonReader (Option Char) := do
  match ← Reader.peek? with
  | none => malformed
  | some c =>
      Reader.advance
      if c = '"' then return none
      else if c = '\\' then return some (← escaped unicode)
      else if c < ' ' then malformed
      else return some c

/-- The characters between quotes, of which the first is still to come. -/
def quoted (unicode : JsonReader Char) : JsonReader (List Char) := do
  expect "\""
  Reader.repeatUntilNone .malformed (letter? unicode)

/-- The text between quotes. -/
def text : JsonReader String := do
  return String.ofList (← quoted codePoint)

/-- Passes over the text between quotes. -/
def skipText : JsonReader Unit := do
  let _ ← quoted anyUnit

end DelegatedAccess.Json
